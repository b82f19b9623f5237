import RobotHost.Proofs.Process.Restoring

/-!
# Programs that are started and stopped again

A signal makes a program ask one thing of the host, or nothing (`Program.demand?`), and how the host
answers is how the signal is taken (`Program.send_eq`). A program may get any signals in any order,
with any number of calls that others make on the host in between. What it asked for in the course of
them is told by its history (`Program.history`).

A program that runs once is run until it exits well, and never again. A supervised one spawns a child
whenever it is started without one; the children that it spawned are, in order, those that it
released and the one that it holds. Either way a program that was started is *settled*: until it is
stopped, a start asks for nothing. So a manager of programs that were all started can be merged into
any other (`Program.lifecycle`).
-/

namespace RobotHost

namespace Program

/-! ## What is asked of the host -/

/-- What a program asks of the host. -/
inductive Demand where
  /-- To run it to its end. -/
  | run
  /-- To run it beside others, as a child. -/
  | spawn
  /-- To end a child. -/
  | release (child : Nat)
deriving DecidableEq, Repr

/-- What a signal makes a program ask for. -/
def demand? (p : Program) : Signal → Option Demand
  | .start =>
    if p.config.oneShot then if p.ranBefore then none else some .run
    else if p.child.isSome then none else some .spawn
  | .stop => p.child.map .release

/-- A program that runs once asks for its run, a supervised one for a child if it holds none, and one
that is stopped for the release of its child. -/
theorem demand?_cases {p : Program} {s : Signal} {d : Demand} (hd : p.demand? s = some d) :
    (s = .start ∧ d = .run ∧ p.config.oneShot = true ∧ p.ranBefore = false) ∨
      (s = .start ∧ d = .spawn ∧ p.config.oneShot = false ∧ p.child = none) ∨
      ∃ child, s = .stop ∧ d = .release child ∧ p.child = some child := by
  cases s with
  | start =>
    simp only [demand?] at hd
    split at hd
    · next honce =>
      split at hd
      · cases hd
      · next hran => exact .inl ⟨rfl, (Option.some.inj hd).symm, honce, by simpa using hran⟩
    · next honce =>
      split at hd
      · cases hd
      · next hheld =>
        exact .inr (.inl ⟨rfl, (Option.some.inj hd).symm, by simpa using honce, by simpa using hheld⟩)
  | stop =>
    obtain ⟨child, hchild, rfl⟩ := Option.map_eq_some_iff.mp hd
    exact .inr (.inr ⟨child, rfl, rfl, hchild⟩)

/-- How the host answers. A run is answered well if it exits with zero. -/
def Demand.answer (h : Host) (call : Nat) (c : ProcessConfig) : Demand → Except ProcessError Unit
  | run =>
    match h.run call c with
    | .failed reason => .error (.spawn c.id reason)
    | .exited 0 => .ok ()
    | .exited code => .error (.exited c.id code)
  | spawn =>
    match h.spawn call c with
    | some reason => .error (.spawn c.id reason)
    | none => .ok ()
  | release child =>
    match h.release call child with
    | some reason => .error (.kill c.id reason)
    | none => .ok ()

/-- The program after the answer to a demand. A child is given up whatever the answer is. -/
def answered (call : Nat) (p : Program) : Demand → Except ProcessError Unit → Program
  | .run, .ok () => { p with ranBefore := true }
  | .spawn, .ok () => { p with child := some call, ranBefore := true }
  | .release _, _ => { p with child := none }
  | .run, .error _ | .spawn, .error _ => p

/-- Gives a program a signal. -/
def send (h : Host) (call : Nat) (p : Program) : Signal → Attempt Program
  | .start => p.start h call
  | .stop => p.stop h call

/-- A signal is taken as the host answers what it makes the program ask for. -/
theorem send_eq (h : Host) (call : Nat) (p : Program) (s : Signal) :
    p.send h call s =
      match p.demand? s with
      | none => ⟨.ok (), p, call⟩
      | some d =>
        ⟨d.answer h call p.config, p.answered call d (d.answer h call p.config), call + 1⟩ := by
  -- each branch of a start or a stop asks the host for one thing, or for nothing
  cases s with
  | start =>
    show p.start h call = _
    unfold start demand?
    by_cases honce : p.config.oneShot = true
    · rw [if_pos honce, if_pos honce, startOnce]
      by_cases hran : p.ranBefore = true
      · rw [if_pos hran, if_pos hran]
      · rw [if_neg hran, if_neg hran]
        simp only [Demand.answer]
        rcases h.run call p.config with reason | code
        · rfl
        · cases code <;> rfl
    · rw [if_neg honce, if_neg honce, startSupervised]
      by_cases hheld : p.child.isSome = true
      · rw [if_pos hheld, if_pos hheld]
      · rw [if_neg hheld, if_neg hheld]
        simp only [Demand.answer]
        cases h.spawn call p.config <;> rfl
  | stop =>
    show p.stop h call = _
    unfold stop demand?
    cases p.child with
    | none => rfl
    | some child =>
      simp only [Option.map_some, Demand.answer]
      cases h.release call child <;> rfl

/-- No answer changes how a program is configured. -/
theorem config_answered (call : Nat) (p : Program) (d : Demand) (outcome : Except ProcessError Unit) :
    (p.answered call d outcome).config = p.config := by
  cases d <;> cases outcome <;> rfl

/-! ## Histories -/

/-- How a program took a signal. -/
structure Taken where
  signal : Signal
  /-- The number of the next call on the host, before and after. -/
  call : Nat
  next : Nat
  before : Program
  after : Program
  outcome : Except ProcessError Unit

/-- What the program asked for. -/
def Taken.demand? (t : Taken) : Option Demand := t.before.demand? t.signal

def take (h : Host) (call : Nat) (p : Program) (s : Signal) : Taken where
  signal := s
  call := call
  next := (p.send h call s).nextCall
  before := p
  after := (p.send h call s).after
  outcome := (p.send h call s).outcome

/-- How a program takes signals in turn, each after a number of calls that others make on the
host. -/
def history (h : Host) : (call : Nat) → Program → List (Nat × Signal) → List Taken
  | _, _, [] => []
  | call, p, (others, s) :: rest =>
    let t := p.take h (call + others) s
    t :: history h t.next t.after rest

/-- What every signal keeps up, given those before it, holds whenever a signal is taken. What follows
is the history of the program from then on. -/
theorem history_holds {h : Host} {P : List Taken → Nat → Program → Prop} {call : Nat} {p : Program}
    {signals : List (Nat × Signal)}
    (hstep : ∀ past n q others s, P past n q →
      P (past ++ [q.take h (n + others) s]) (q.take h (n + others) s).next
        (q.take h (n + others) s).after)
    (hp : P [] call p) {before after : List Taken} {t : Taken}
    (ht : history h call p signals = before ++ t :: after) :
    ∃ n q others rest, P before n q ∧ t = q.take h (n + others) t.signal ∧
      after = history h t.next t.after rest := by
  induction signals generalizing call p before P with
  | nil => cases before <;> cases ht
  | cons first rest ih =>
    obtain ⟨others, s⟩ := first
    have hcons : p.take h (call + others) s :: history h (p.take h (call + others) s).next
        (p.take h (call + others) s).after rest = before ++ t :: after := ht
    cases before with
    | nil =>
      obtain ⟨rfl, rfl⟩ := List.cons.inj hcons
      exact ⟨call, p, others, rest, hp, rfl, rfl⟩
    | cons t₀ before =>
      obtain ⟨rfl, hrest⟩ := List.cons.inj hcons
      exact ih (P := fun past => P (p.take h (call + others) s :: past))
        (fun past n q others' s' => hstep _ n q others' s') (hstep [] call p others s hp) hrest

/-- What is in a history is how some program took a signal. -/
theorem exists_take_of_mem_history {h : Host} {call : Nat} {p : Program}
    {signals : List (Nat × Signal)} {t : Taken} (ht : t ∈ history h call p signals) :
    ∃ n q, t = take h n q t.signal := by
  obtain ⟨before, after, hbetween⟩ := List.append_of_mem ht
  obtain ⟨n, q, others, -, -, htake, -⟩ := history_holds (P := fun _ _ _ => True)
    (fun _ _ _ _ _ _ => trivial) trivial hbetween
  exact ⟨_, q, htake⟩

/-- A program asks for one thing; how the host answers is the outcome, and decides what becomes of the
program. If it asks for nothing, it takes the signal well and stays as it was. -/
def Taken.Answered (h : Host) (t : Taken) : Prop :=
  match t.demand? with
  | none => t.outcome = .ok () ∧ t.after = t.before ∧ t.next = t.call
  | some d =>
    t.outcome = d.answer h t.call t.before.config ∧
      t.after = t.before.answered t.call d t.outcome ∧ t.next = t.call + 1

/-- Every signal is taken with one request at most, and answered by the host. -/
theorem take_answered (h : Host) (call : Nat) (p : Program) (s : Signal) :
    (p.take h call s).Answered h := by
  unfold Taken.Answered
  show match p.demand? s with
    | none => _
    | some d => _
  cases hd : p.demand? s with
  | none => simp [take, send_eq, hd]
  | some d => simp [take, send_eq, hd]

/-- After a request a program is what the answer makes of it. -/
theorem after_take {p : Program} {s : Signal} {d : Demand} (hd : p.demand? s = some d) (h : Host)
    (call : Nat) : (p.take h call s).after = p.answered call d (d.answer h call p.config) := by
  simp [take, send_eq, hd]

theorem after_take_of_none {p : Program} {s : Signal} (hd : p.demand? s = none) (h : Host)
    (call : Nat) : (p.take h call s).after = p := by
  simp [take, send_eq, hd]

theorem outcome_take {p : Program} {s : Signal} {d : Demand} (hd : p.demand? s = some d) (h : Host)
    (call : Nat) : (p.take h call s).outcome = d.answer h call p.config := by
  simp [take, send_eq, hd]

theorem next_take (h : Host) (call : Nat) (p : Program) (s : Signal) :
    (p.take h call s).next = if p.demand? s = none then call else call + 1 := by
  cases hd : p.demand? s <;> simp [take, send_eq, hd]

theorem config_take (h : Host) (call : Nat) (p : Program) (s : Signal) :
    (p.take h call s).after.config = p.config := by
  cases hd : p.demand? s with
  | none => rw [after_take_of_none hd]
  | some d => rw [after_take hd, config_answered]

/-! ## Programs that run once -/

/-- The program was run, and exited well. -/
def Taken.RanWell (t : Taken) : Prop := t.demand? = some .run ∧ t.outcome = .ok ()

/-- How a program that runs once takes signals. -/
structure RunsOnce (h : Host) (c : ProcessConfig) (ts : List Taken) : Prop where
  /-- Each start runs it until it has exited well, and fails if the run does. -/
  runs : ∀ before t after, ts = before ++ t :: after → t.signal = .start →
    (∀ u ∈ before, ¬u.RanWell) →
      t.demand? = some .run ∧ (t.outcome = .ok () ↔ h.run t.call c = .exited 0)
  /-- From then on it is never run again. -/
  rests : ∀ before t after, ts = before ++ t :: after → (∃ u ∈ before, u.RanWell) →
    t.demand? = none
  /-- To stop it has no effect. -/
  stops : ∀ t ∈ ts, t.signal = .stop → t.demand? = none

/-- A run went well if the program exited with zero. -/
theorem Demand.answer_run_eq_ok {h : Host} {call : Nat} {c : ProcessConfig} :
    Demand.run.answer h call c = .ok () ↔ h.run call c = .exited 0 := by
  simp only [Demand.answer]
  split <;> simp_all

/-- It holds no child, and has run before if a run exited well. -/
structure Oneshot (c : ProcessConfig) (past : List Taken) (p : Program) : Prop where
  config : p.config = c
  child : p.child = none
  ranBefore : p.ranBefore = true ↔ ∃ u ∈ past, u.RanWell

/-- A signal leaves a program that runs once without a child, and a run that exits well is
remembered. -/
theorem Oneshot.take {c : ProcessConfig} (hc : c.oneShot = true) {past : List Taken} {p : Program}
    (hp : Oneshot c past p) (h : Host) (call : Nat) (s : Signal) :
    Oneshot c (past ++ [p.take h call s]) (p.take h call s).after := by
  have hranWell : (∃ u ∈ past ++ [p.take h call s], u.RanWell) ↔
      (∃ u ∈ past, u.RanWell) ∨ (p.take h call s).RanWell := by
    simp only [List.mem_append, List.mem_singleton, or_and_right, exists_or, exists_eq_left]
  have honce : p.config.oneShot = true := hp.config.symm ▸ hc
  cases hd : p.demand? s with
  | none =>
    -- nothing was asked for, so no run exited well
    have hnot : ¬(p.take h call s).RanWell := fun hran => by
      have hrun : p.demand? s = some .run := hran.1
      rw [hd] at hrun
      cases hrun
    rw [after_take_of_none hd]
    exact ⟨hp.config, hp.child, by rw [hranWell, or_iff_left hnot]; exact hp.ranBefore⟩
  | some d =>
    obtain rfl : d = .run := by
      rcases demand?_cases hd with ⟨-, hrun, -⟩ | ⟨-, -, hsupervised, -⟩ | ⟨child, -, -, hchild⟩
      · exact hrun
      · rw [honce] at hsupervised
        cases hsupervised
      · rw [hp.child] at hchild
        cases hchild
    rw [after_take hd]
    cases hanswer : Demand.run.answer h call p.config with
    | error e =>
      refine ⟨hp.config, hp.child, ?_⟩
      rw [hranWell, or_iff_left]
      · exact hp.ranBefore
      · rintro ⟨-, hok⟩
        rw [outcome_take hd, hanswer] at hok
        cases hok
    | ok =>
      refine ⟨hp.config, hp.child, ?_⟩
      rw [hranWell]
      exact iff_of_true rfl (.inr ⟨hd, (outcome_take hd h call).trans hanswer⟩)

/-- By induction on the signals, with `Oneshot` as the invariant. -/
theorem history_runsOnce {c : ProcessConfig} (hc : c.oneShot = true) (h : Host) (call : Nat)
    (signals : List (Nat × Signal)) : RunsOnce h c (history h call { config := c } signals) := by
  have hfirst : Oneshot c [] { config := c } := ⟨rfl, rfl, by simp⟩
  -- whatever signal is looked at, the program was as it should be when it was taken
  have hsplit : ∀ before t after, history h call { config := c } signals = before ++ t :: after →
      Oneshot c before t.before ∧ t.Answered h := by
    intro before t after ht
    obtain ⟨n, q, others, -, hq, htake, -⟩ := history_holds
      (P := fun past _ p => Oneshot c past p) (fun past n q others s hq => hq.take hc h _ s) hfirst ht
    rw [htake]
    exact ⟨hq, take_answered h _ q _⟩
  refine ⟨fun before t after ht hs hnone => ?_, fun before t after ht hran => ?_, fun t ht hs => ?_⟩
  · obtain ⟨hbefore, hanswered⟩ := hsplit before t after ht
    have hnot : ¬t.before.ranBefore = true := fun hran => by
      obtain ⟨u, hu, hwell⟩ := hbefore.ranBefore.mp hran
      exact hnone u hu hwell
    have hd : t.demand? = some .run := by
      rw [Taken.demand?, hs, demand?, hbefore.config, if_pos hc, if_neg hnot]
    refine ⟨hd, ?_⟩
    unfold Taken.Answered at hanswered
    rw [hd] at hanswered
    rw [hanswered.1, hbefore.config, Demand.answer_run_eq_ok]
  · obtain ⟨hbefore, -⟩ := hsplit before t after ht
    rw [Taken.demand?]
    cases t.signal with
    | start => rw [demand?, hbefore.config, if_pos hc, if_pos (hbefore.ranBefore.mpr hran)]
    | stop => rw [demand?, hbefore.child, Option.map_none]
  · obtain ⟨before, after, hbetween⟩ := List.append_of_mem ht
    obtain ⟨hbefore, -⟩ := hsplit before t after hbetween
    rw [Taken.demand?, hs, demand?, hbefore.child, Option.map_none]

/-! ## Supervised programs -/

/-- The child that came of a signal, by the number of the call that spawned it. -/
def Taken.spawned? (t : Taken) : Option Nat :=
  match t.demand?, t.outcome with
  | some .spawn, .ok () => some t.call
  | _, _ => none

/-- The child that was released at a signal. -/
def Taken.released? (t : Taken) : Option Nat :=
  match t.demand? with
  | some (.release child) => some child
  | _ => none

def spawned (ts : List Taken) : List Nat := ts.filterMap Taken.spawned?

def released (ts : List Taken) : List Nat := ts.filterMap Taken.released?

/-- The children that were spawned are, in order, those that were released and the one that the
program holds. -/
def Accounts (past : List Taken) (p : Program) : Prop :=
  spawned past = released past ++ p.child.toList

/-- How a supervised program takes signals. -/
structure KeepsOneChild (ts : List Taken) : Prop where
  /-- A start spawns a child just if none is held. -/
  starts : ∀ t ∈ ts, t.signal = .start →
    t.demand? = if t.before.child = none then some .spawn else none
  /-- If that fails, nothing has changed. -/
  refused : ∀ t ∈ ts, t.signal = .start → t.outcome ≠ .ok () → t.after = t.before
  /-- A stop releases the child that is held, and none is held from then on. -/
  stops : ∀ t ∈ ts, t.signal = .stop →
    t.demand? = t.before.child.map .release ∧ t.after.child = none
  /-- At any time, at most one of the children that were spawned has not been released. -/
  accounts : ∀ before t after, ts = before ++ t :: after →
    Accounts before t.before ∧ Accounts (before ++ [t]) t.after
  spawnedOnce : (spawned ts).Nodup
  releasedOnce : (released ts).Nodup

/-- What holds of a supervised program at any time, if `n` is the number of the next call. -/
structure Supervised (c : ProcessConfig) (past : List Taken) (n : Nat) (p : Program) : Prop where
  config : p.config = c
  accounts : Accounts past p
  earlier : ∀ child ∈ spawned past, child < n
  ascending : (spawned past).Pairwise (· < ·)

/-- A supervised program asks for a child when it has none. -/
theorem demand?_start {p : Program} (hp : p.config.oneShot = false) :
    p.demand? .start = if p.child = none then some .spawn else none := by
  simp only [demand?, hp, Bool.false_eq_true, if_false]
  cases p.child <;> rfl

/-- The child that is held and the one that is spawned at a signal are the one that is released at it
and the one that is held from then on. -/
theorem children_take (h : Host) (call : Nat) (p : Program) (s : Signal) :
    p.child.toList ++ (p.take h call s).spawned?.toList =
      (p.take h call s).released?.toList ++ (p.take h call s).after.child.toList := by
  have hdemand : (p.take h call s).demand? = p.demand? s := rfl
  cases hd : p.demand? s with
  | none => simp [Taken.spawned?, Taken.released?, hdemand, hd, after_take_of_none hd]
  | some d =>
    simp only [Taken.spawned?, Taken.released?, hdemand, hd, after_take hd, outcome_take hd]
    rcases demand?_cases hd with ⟨-, rfl, -⟩ | ⟨-, rfl, -, hchild⟩ | ⟨child, -, rfl, hchild⟩
    · cases Demand.run.answer h call p.config <;> simp [answered]
    · cases Demand.spawn.answer h call p.config <;> simp [answered, hchild, take]
    · simp [answered, hchild]

/-- A child is known by the call that spawned it, and the calls go on from there. -/
theorem spawned_take {h : Host} {call child : Nat} {p : Program} {s : Signal}
    (hchild : (p.take h call s).spawned? = some child) :
    child = call ∧ (p.take h call s).next = call + 1 := by
  have hdemand : (p.take h call s).demand? = p.demand? s := rfl
  simp only [Taken.spawned?, hdemand] at hchild
  split at hchild
  · next hd _ => exact ⟨(Option.some.inj hchild).symm, by rw [next_take, hd]; rfl⟩
  · cases hchild

/-- A signal leaves a supervised program with a child of its own, or with none, and all others are
released. -/
theorem Supervised.take {c : ProcessConfig} {past : List Taken} {n : Nat} {p : Program}
    (hp : Supervised c past n p) (h : Host) (others : Nat) (s : Signal) :
    Supervised c (past ++ [p.take h (n + others) s]) (p.take h (n + others) s).next
      (p.take h (n + others) s).after := by
  have hspawned : spawned (past ++ [p.take h (n + others) s]) =
      spawned past ++ (p.take h (n + others) s).spawned?.toList := by
    cases hs : (p.take h (n + others) s).spawned? <;> simp [spawned, hs]
  have hreleased : released (past ++ [p.take h (n + others) s]) =
      released past ++ (p.take h (n + others) s).released?.toList := by
    cases hr : (p.take h (n + others) s).released? <;> simp [released, hr]
  have hnext : n ≤ (p.take h (n + others) s).next := by
    rw [next_take]
    split <;> omega
  -- the accounts balance again, and a child that is new is later than all before it
  refine ⟨(config_take h _ p s).trans hp.config, ?_, ?_, ?_⟩
  · have haccounts : spawned past = released past ++ p.child.toList := hp.accounts
    rw [Accounts, hspawned, hreleased, haccounts, List.append_assoc, children_take,
      List.append_assoc]
  · rw [hspawned]
    intro child hmem
    rcases List.mem_append.mp hmem with hold | hnew
    · exact Nat.lt_of_lt_of_le (hp.earlier child hold) hnext
    · obtain ⟨rfl, hcalls⟩ := spawned_take (Option.mem_toList.mp hnew)
      omega
  · rw [hspawned, List.pairwise_append]
    refine ⟨hp.ascending, ?_, fun child hold last hnew => ?_⟩
    · cases (p.take h (n + others) s).spawned? <;> simp
    · obtain ⟨rfl, -⟩ := spawned_take (Option.mem_toList.mp hnew)
      exact Nat.lt_add_right others (hp.earlier child hold)

/-- A start that fails leaves a program as it was. -/
theorem take_start_refused (h : Host) (call : Nat) (p : Program)
    (hfails : (p.take h call .start).outcome ≠ .ok ()) : (p.take h call .start).after = p := by
  cases hd : p.demand? .start with
  | none => exact after_take_of_none hd h call
  | some d =>
    rw [after_take hd]
    cases hanswer : d.answer h call p.config with
    | ok => exact absurd ((outcome_take hd h call).trans hanswer) hfails
    | error e =>
      rcases demand?_cases hd with ⟨-, rfl, -⟩ | ⟨-, rfl, -⟩ | ⟨child, hs, -⟩
      · rfl
      · rfl
      · cases hs

/-- Nothing is held once a program was stopped. -/
theorem child_take_stop (h : Host) (call : Nat) (p : Program) :
    (p.take h call .stop).after.child = none := by
  cases hd : p.demand? .stop with
  | none =>
    rw [after_take_of_none hd]
    exact Option.map_eq_none_iff.mp hd
  | some d =>
    rw [after_take hd]
    obtain ⟨child, -, rfl⟩ := Option.map_eq_some_iff.mp hd
    rfl

/-- By induction on the signals, with `Supervised` as the invariant. -/
theorem history_keepsOneChild {c : ProcessConfig} (hc : c.oneShot = false) (h : Host) (call : Nat)
    (signals : List (Nat × Signal)) : KeepsOneChild (history h call { config := c } signals) := by
  have hfirst : Supervised c [] call { config := c } :=
    ⟨rfl, rfl, by simp [spawned], by simp [spawned]⟩
  have hsplit : ∀ before t after, history h call { config := c } signals = before ++ t :: after →
      ∃ n, Supervised c before n t.before ∧ Supervised c (before ++ [t]) t.next t.after ∧
        t.Answered h := by
    intro before t after ht
    obtain ⟨n, q, others, -, hq, htake, -⟩ := history_holds (P := Supervised c)
      (fun past n q others s hq => hq.take h others s) hfirst ht
    refine ⟨n, ?_⟩
    rw [htake]
    exact ⟨hq, hq.take h others _, take_answered h _ q _⟩
  have hmem : ∀ t ∈ history h call { config := c } signals,
      t.before.config.oneShot = false ∧ t.Answered h := by
    intro t ht
    obtain ⟨before, after, hbetween⟩ := List.append_of_mem ht
    obtain ⟨n, hbefore, -, hanswered⟩ := hsplit before t after hbetween
    exact ⟨hbefore.config.symm ▸ hc, hanswered⟩
  -- the whole history ends with all of the children in ascending order
  have hend : (spawned (history h call { config := c } signals)).Pairwise (· < ·) ∧
      ∃ p, Accounts (history h call { config := c } signals) p := by
    rcases List.eq_nil_or_concat (history h call { config := c } signals) with hnil | ⟨before, t, ht⟩
    · rw [hnil]
      exact ⟨hfirst.ascending, _, hfirst.accounts⟩
    · rw [List.concat_eq_append] at ht
      obtain ⟨n, -, hafter, -⟩ := hsplit before t [] ht
      rw [ht]
      exact ⟨hafter.ascending, _, hafter.accounts⟩
  obtain ⟨hascending, p, haccounts⟩ := hend
  have hnodup := hascending.imp Nat.ne_of_lt
  refine ⟨fun t ht hs => ?_, fun t ht hs hfails => ?_, fun t ht hs => ?_, fun before t after ht => ?_,
    hnodup, ?_⟩
  · rw [Taken.demand?, hs, demand?_start (hmem t ht).1]
  · obtain ⟨n, q, htake⟩ := exists_take_of_mem_history ht
    rw [htake, hs] at hfails ⊢
    exact take_start_refused h n q hfails
  · obtain ⟨n, q, htake⟩ := exists_take_of_mem_history ht
    rw [htake, hs]
    exact ⟨rfl, child_take_stop h n q⟩
  · obtain ⟨n, hbefore, hafter, -⟩ := hsplit before t after ht
    exact ⟨hbefore.accounts, hafter.accounts⟩
  · rw [Accounts] at haccounts
    rw [haccounts] at hnodup
    exact (List.nodup_append.mp hnodup).1

/-! ## Starting again -/

/-- A start asks for nothing, so that it cannot fail. -/
def Settled (p : Program) : Prop := p.demand? .start = none

/-- A settled program starts without a call to the host. -/
theorem start_of_settled {p : Program} (hp : p.Settled) (h : Host) (call : Nat) :
    p.start h call = ⟨.ok (), p, call⟩ := by
  have heq := send_eq h call p .start
  rw [Settled] at hp
  rw [hp] at heq
  exact heq

/-- A start that succeeds settles a program. -/
theorem settled_of_start {h : Host} {call : Nat} {p : Program}
    (hok : (p.start h call).outcome = .ok ()) : (p.start h call).after.Settled := by
  have heq : p.start h call = _ := send_eq h call p .start
  cases hd : p.demand? .start with
  | none =>
    rw [hd] at heq
    rw [heq]
    exact hd
  | some d =>
    rw [hd] at heq
    rw [heq] at hok ⊢
    have hanswer : d.answer h call p.config = .ok () := hok
    show (p.answered call d (d.answer h call p.config)).Settled
    rw [hanswer]
    -- the demand was met, so that it is not made again
    rcases demand?_cases hd with ⟨-, rfl, honce, -⟩ | ⟨-, rfl, honce, -⟩ | ⟨child, hs, -⟩
    · simp [Settled, demand?, answered, honce]
    · simp [Settled, demand?, answered, honce]
    · cases hs

/-- After a start that succeeded, starts ask for nothing and succeed until the next stop. -/
def StaysStarted (ts : List Taken) : Prop :=
  ∀ before t between u after, ts = before ++ t :: (between ++ u :: after) →
    t.signal = .start → t.outcome = .ok () → (∀ v ∈ between, v.signal = .start) →
      u.signal = .start → u.demand? = none ∧ u.outcome = .ok ()

/-- A start that succeeded has settled the program, and only a stop unsettles it. -/
theorem history_staysStarted (h : Host) (call : Nat) (p : Program)
    (signals : List (Nat × Signal)) : StaysStarted (history h call p signals) := by
  intro before t between u after hts hs hok hstarts hu
  obtain ⟨n, q, others, rest, -, htake, hrest⟩ := history_holds (P := fun _ _ _ => True)
    (fun _ _ _ _ _ _ => trivial) trivial hts
  have hsettled : t.after.Settled := by
    rw [htake, hs] at hok ⊢
    exact settled_of_start hok
  -- as long as there are only starts, the program stays settled
  obtain ⟨n', q', others', -, hq', htake', -⟩ := history_holds
    (P := fun past _ q => (∀ v ∈ past, v.signal = .start) → q.Settled)
    (fun past n q others s hq hpast => by
      have hstart : s = .start := hpast (q.take h (n + others) s) (by simp)
      subst hstart
      have hq := hq fun v hv => hpast v (List.mem_append_left _ hv)
      rw [after_take_of_none hq]
      exact hq)
    (fun _ => hsettled) hrest.symm
  have hnone := hq' hstarts
  rw [htake', hu]
  exact ⟨hnone, congrArg Attempt.outcome (start_of_settled hnone h _)⟩

end Program

/-! ## Managers of started programs -/

namespace World

/-- A process is a program. -/
def Runs (w : World) (p : Ref .process) : Prop := ∃ q, w.processes.get? p = some (.program q)

/-- A process is a program that is settled. -/
def Settled (w : World) (p : Ref .process) : Prop :=
  ∃ q, w.processes.get? p = some (.program q) ∧ q.Settled

/-- Programs stay programs, and those that are settled stay so. -/
structure KeepsSettled (w u : World) : Prop where
  runs : ∀ p, w.Runs p → u.Runs p
  settled : ∀ p, w.Settled p → u.Settled p

theorem KeepsSettled.refl (w : World) : w.KeepsSettled w := ⟨fun _ => id, fun _ => id⟩

theorem KeepsSettled.trans {w u v : World} (hwu : w.KeepsSettled u) (huv : u.KeepsSettled v) :
    w.KeepsSettled v :=
  ⟨fun p hp => huv.runs p (hwu.runs p hp), fun p hp => huv.settled p (hwu.settled p hp)⟩

/-- The world once a process was started, well or not. -/
theorem start_program {w : World} {p : Ref .process} {q : Program}
    (hq : w.processes.get? p = some (.program q)) (h : Host) :
    start h p w =
      let a := q.start h w.hostCalls
      let u := { w with
        processes := w.processes.set p (.program a.after)
        hostCalls := a.nextCall
        log := w.log ++ [.started p] }
      match a.outcome with
      | .ok () => .ok () u
      | .error e => .error e u := by
  rw [start, hq]
  rfl

/-- A program that is started is the only process that has moved on. -/
theorem get?_start_program {w : World} {p : Ref .process} {q : Program}
    (hq : w.processes.get? p = some (.program q)) (h : Host) (r : Ref .process) :
    (stateAfter (start h p w)).processes.get? r =
      if p = r then some (.program (q.start h w.hostCalls).after) else w.processes.get? r := by
  have hset : (w.processes.set p (.program (q.start h w.hostCalls).after)).get? r =
      if p = r then some (.program (q.start h w.hostCalls).after) else w.processes.get? r := by
    rw [Table.get?_set]
    split
    · next hr =>
      subst hr
      rw [hq]
      rfl
    · rfl
  rw [start_program hq h, ← hset]
  simp only
  cases (q.start h w.hostCalls).outcome <;> rfl

theorem get?_start_other (h : Host) {p r : Ref .process} (hr : p ≠ r) (w : World) :
    (stateAfter (start h p w)).processes.get? r = w.processes.get? r := by
  unfold start
  cases hp : w.processes.get? p with
  | none => rfl
  | some q =>
    have hset := Table.get?_set w.processes p r (q.start h w.hostCalls).after
    rw [if_neg hr] at hset
    rw [← hset]
    simp only
    cases (q.start h w.hostCalls).outcome <;> rfl

/-- To start a process unsettles no program, not even itself. -/
theorem start_keepsSettled (h : Host) (p : Ref .process) : Along KeepsSettled (start h p) := by
  refine fun w => ⟨fun r hr => ?_, fun r hr => ?_⟩
  · obtain ⟨q, hq⟩ := hr
    by_cases hpr : p = r
    · subst hpr
      exact ⟨_, by rw [get?_start_program hq, if_pos rfl]⟩
    · exact ⟨q, by rw [get?_start_other h hpr, hq]⟩
  · obtain ⟨q, hq, hsettled⟩ := hr
    by_cases hpr : p = r
    · subst hpr
      refine ⟨q, ?_, hsettled⟩
      rw [get?_start_program hq, if_pos rfl, Program.start_of_settled hsettled]
    · exact ⟨q, by rw [get?_start_other h hpr, hq], hsettled⟩

theorem startEach_keepsSettled (h : Host) (ps : List (Ref .process)) :
    Along KeepsSettled (startEach h ps) :=
  startEach_along .refl (fun _ _ _ => .trans) (start_keepsSettled h) ps

/-- A program that has started is settled. -/
theorem settled_of_start {h : Host} {p : Ref .process} {w u : World} (hp : w.Runs p)
    (hok : start h p w = .ok () u) : u.Settled p := by
  obtain ⟨q, hq⟩ := hp
  have hget := get?_start_program hq h p
  rw [hok, if_pos rfl] at hget
  refine ⟨_, hget, Program.settled_of_start ?_⟩
  rw [start_program hq h] at hok
  cases houtcome : (q.start h w.hostCalls).outcome with
  | ok => rfl
  | error e => simp [houtcome] at hok

/-- Programs that were all started are all settled. -/
theorem settled_of_startEach {h : Host} {ps : List (Ref .process)} {w u : World}
    (hps : ∀ p ∈ ps, w.Runs p) (hok : startEach h ps w = .ok () u) : ∀ p ∈ ps, u.Settled p := by
  induction ps generalizing w with
  | nil => simp
  | cons p rest ih =>
    obtain ⟨⟨⟩, v, hfirst, hrest⟩ := bind_eq_ok.mp hok
    obtain ⟨hp, hothers⟩ := List.forall_mem_cons.mp hps
    have hruns := ((start_keepsSettled h p).of_ok hfirst).runs
    refine List.forall_mem_cons.mpr ⟨?_, ih (fun q hq => hruns q (hothers q hq)) hrest⟩
    exact ((startEach_keepsSettled h rest).of_ok hrest).settled p (settled_of_start hp hfirst)

/-- To start a settled program asks nothing of the host. -/
theorem start_of_settled {w : World} {p : Ref .process} (hp : w.Settled p) (h : Host) :
    ∃ u, start h p w = .ok () u ∧ u.hostCalls = w.hostCalls := by
  obtain ⟨q, hq, hsettled⟩ := hp
  rw [start_program hq, Program.start_of_settled hsettled]
  exact ⟨_, rfl, rfl⟩

/-- Settled programs start without a single call to the host. -/
theorem startEach_of_settled {ps : List (Ref .process)} {w : World}
    (hps : ∀ p ∈ ps, w.Settled p) (h : Host) :
    ∃ u, startEach h ps w = .ok () u ∧ u.hostCalls = w.hostCalls := by
  induction ps generalizing w with
  | nil => exact ⟨w, rfl, rfl⟩
  | cons p rest ih =>
    obtain ⟨hp, hothers⟩ := List.forall_mem_cons.mp hps
    obtain ⟨v, hfirst, hcalls⟩ := start_of_settled hp h
    have hsettled := ((start_keepsSettled h p).of_ok hfirst).settled
    obtain ⟨u, hrest, hcalls'⟩ := ih fun q hq => hsettled q (hothers q hq)
    exact ⟨u, bind_eq_ok.mpr ⟨(), v, hfirst, hrest⟩, hcalls'.trans hcalls⟩

end World

/-- Whether it was started or not, a manager takes settled programs and asks nothing of the host. -/
theorem ProcessManager.addAll_of_settled (h : Host) (m : ProcessManager) {staged : ProcessManager}
    {w : World} (hstaged : ∀ p ∈ staged.processes.values, w.Settled p) :
    ∃ x u, m.addAll h staged w = .ok x u ∧ u.hostCalls = w.hostCalls := by
  cases hm : m.started with
  | false =>
    obtain ⟨x, hadd⟩ := addEach_of_not_started h hm staged.processes.values w
    exact ⟨x, w, hadd, rfl⟩
  | true =>
    obtain ⟨u, hstart, hcalls⟩ := World.startEach_of_settled hstaged h
    have hadd := addEach_of_started h hm staged.processes.values w
    rw [hstart] at hadd
    show ∃ x u, m.addEach h staged.processes.values w = .ok x u ∧ _
    cases hresult : m.addEach h staged.processes.values w with
    | error e v => simp [hresult] at hadd
    | ok x v =>
      rw [hresult] at hadd
      cases hadd
      exact ⟨x, u, rfl, hcalls⟩

/-! ## The result -/

/-- A program that runs once is run until it exits well; a supervised one has at most one child, which
it spawns when it is started without one and gives up when it is stopped. Whatever signals it gets,
a program that was started stays so until it is stopped, and after all programs of a manager were
started, to merge it into any other asks nothing of the host and cannot fail. -/
theorem Program.lifecycle (h : Host) :
    (∀ c call signals,
      let ts := history h call { config := c } signals
      (∀ t ∈ ts, t.Answered h) ∧ (c.oneShot = true → RunsOnce h c ts) ∧
        (c.oneShot = false → KeepsOneChild ts) ∧ StaysStarted ts) ∧
      ∀ (m staged : ProcessManager) (w u : World), (∀ p ∈ staged.processes.values, w.Runs p) →
        staged.startAll h w = .ok () u →
          ∃ x v, m.addAll h staged u = .ok x v ∧ v.hostCalls = u.hostCalls := by
  refine ⟨fun c call signals => ⟨fun t ht => ?_, fun hc => history_runsOnce hc h call signals,
    fun hc => history_keepsOneChild hc h call signals, history_staysStarted h call _ signals⟩,
    fun m staged w u hruns hstart => ?_⟩
  · obtain ⟨n, q, htake⟩ := exists_take_of_mem_history ht
    rw [htake]
    exact take_answered h n q _
  · exact ProcessManager.addAll_of_settled h m (World.settled_of_startEach hruns hstart)

namespace Sample

/-- Its first call on a run exits badly. -/
def moody : Host where
  run call _ := .exited (if call = 0 then 1 else 0)
  spawn _ _ := none
  release _ _ := none

def warmUp : ProcessConfig := { id := "warm-up", name := "true", oneShot := true }

def watchdog : ProcessConfig := { id := "watchdog", name := "sleep" }

def staged : ProcessManager := { processes := NameMap.empty.insert "watchdog" ⟨0⟩ }

def idle : World := { processes := ⟨[.program { config := watchdog }]⟩ }

/-- The watchdog has its child. -/
def busy : World where
  processes := ⟨[.program { config := watchdog, child := some 0, ranBefore := true }]⟩
  hostCalls := 1
  log := [.started ⟨0⟩]

open Program in
/-- Two starts, a stop and a third start. -/
def warmUps : List Taken :=
  history moody 0 { config := warmUp } [(0, .start), (0, .start), (0, .stop), (0, .start)]

open Program in
/-- The same, while others call the host as well. -/
def watches : List Taken :=
  history moody 0 { config := watchdog } [(0, .start), (1, .start), (0, .stop), (2, .start)]

end Sample

theorem Program.lifecycle_sample :
    Sample.warmUps.map Taken.demand? = [some .run, some .run, none, none] ∧
      RunsOnce Sample.moody Sample.warmUp Sample.warmUps ∧
      Sample.watches.map Taken.demand? = [some .spawn, none, some (.release 0), some .spawn] ∧
      KeepsOneChild Sample.watches ∧
      Sample.staged.startAll Sample.moody Sample.idle = .ok () Sample.busy ∧
      ∃ x v, Sample.staged.startedUp.addAll Sample.moody Sample.staged Sample.busy = .ok x v ∧
        v.hostCalls = 1 := by
  obtain ⟨hprograms, hmanagers⟩ := Program.lifecycle Sample.moody
  obtain ⟨-, honce, -, -⟩ :=
    hprograms Sample.warmUp 0 [(0, .start), (0, .start), (0, .stop), (0, .start)]
  obtain ⟨-, -, hsupervised, -⟩ :=
    hprograms Sample.watchdog 0 [(0, .start), (1, .start), (0, .stop), (2, .start)]
  have hstart : Sample.staged.startAll Sample.moody Sample.idle = .ok () Sample.busy := rfl
  refine ⟨rfl, honce rfl, rfl, hsupervised rfl, hstart,
    hmanagers Sample.staged.startedUp Sample.staged Sample.idle Sample.busy ?_ hstart⟩
  intro p hp
  obtain rfl : p = ⟨0⟩ := List.mem_singleton.mp hp
  exact ⟨_, rfl⟩

end RobotHost
