import SubqlConcordium.Interaction.Machine
import SubqlConcordium.Js.Value
import Mathlib.Algebra.Ring.Int.Defs
import Mathlib.Data.List.TakeWhile

/-!
# The profiler

`MetaService` counts what the indexer does and reports the differences every ten seconds. Three of
its counters start at zero with the indexer. The fourth is a block height, whose first value is no
count but a baseline, and the baseline is taken only as long as nobody has started the clock. A
clock that was never started has no time to compare with, and the tick fails.

Counts and heights are whole numbers, which are exact below `2 ^ 53`.

## The clock

The counters only move by events, and a report covers what has come since the one before. It is per
second, so it needs a time to start from, and that is set by the first event that thinks of it.
Filtering does not. A tick before the clock is started throws, and by then has already counted the
enqueued blocks as reported, of which there are none yet.

The texts of the reports, which divide by the time passed, are left out. All that is said is about
the numbers that are divided.

## Main definitions

* `MetaService`, `metaMachine` — the counters, and the handlers as a machine
* `Accounted` — at each tick, what was reported is what happened
* `Grounded` — the clock runs, and from the first height

## Main results

* `Counter.reported_eq`, `reported_filtering_eq` — what the reports of a run add up to
* `accounted_iff` — the runs whose every tick reports what happened
-/

namespace SubqlConcordium

open Js Interaction

/-! ### The service -/

structure MetaService where
  accEnqueueBlocks : ℤ
  accFetchBlocks : ℤ
  currentFilteringBlockNum : ℤ
  accRpcCalls : ℤ
  lastReportedFilteringBlockNum : ℤ
  lastReportedEnqueueBlocks : ℤ
  lastReportedFetchBlocks : ℤ
  lastReportedRpcCalls : ℤ
  /-- In milliseconds, unset at first. -/
  lastStatsReportedTs : Option ℤ

/-- The numbers of a report. The text has each count divided by the time in seconds. -/
structure Report where
  count : ℤ
  filteringCount : ℤ
  rpcCalls : ℤ
  fetchCount : ℤ
  timepass : ℤ

namespace MetaService

def fresh : MetaService := ⟨0, 0, 0, 0, 0, 0, 0, 0, none⟩

/-- `if (!this.lastStatsReportedTs) this.lastStatsReportedTs = new Date()`. -/
def startClock (now : ℤ) (s : MetaService) : MetaService :=
  { s with lastStatsReportedTs := s.lastStatsReportedTs.or (some now) }

def handleEnqueueBlocks (now : ℤ) (size : ℕ) (s : MetaService) : MetaService :=
  startClock now { s with accEnqueueBlocks := s.accEnqueueBlocks + size }

/-- The clock is not started here. -/
def handleFilteringBlocks (height : ℕ) (s : MetaService) : MetaService :=
  { s with
    currentFilteringBlockNum := height
    lastReportedFilteringBlockNum :=
      if s.lastStatsReportedTs.isNone then height else s.lastReportedFilteringBlockNum }

def handleFetchBlock (now : ℤ) (s : MetaService) : MetaService :=
  startClock now { s with accFetchBlocks := s.accFetchBlocks + 1 }

def handleRpcCall (now : ℤ) (s : MetaService) : MetaService :=
  startClock now { s with accRpcCalls := s.accRpcCalls + 1 }

/-- The ten second interval: what it reports, if it does not throw, and the state it leaves. -/
def blockFilteringSpeed (profiler : Bool) (now : ℤ) (s : MetaService) :
    Except JsError (Option Report) × MetaService :=
  if profiler then
    let count := s.accEnqueueBlocks - s.lastReportedEnqueueBlocks
    let s := { s with lastReportedEnqueueBlocks := s.accEnqueueBlocks }
    let filteringCount := s.currentFilteringBlockNum - s.lastReportedFilteringBlockNum
    match s.lastStatsReportedTs with
    | none => (.error (typeError "Cannot read properties of undefined (reading 'getTime')"), s)
    | some ts =>
      let timepass := now - ts
      let rpcCalls := s.accRpcCalls - s.lastReportedRpcCalls
      let fetchCount := s.accFetchBlocks - s.lastReportedFetchBlocks
      (.ok (some ⟨count, filteringCount, rpcCalls, fetchCount, timepass⟩),
        { s with
          lastStatsReportedTs := some now
          lastReportedFilteringBlockNum := s.currentFilteringBlockNum
          lastReportedRpcCalls := s.accRpcCalls
          lastReportedFetchBlocks := s.accFetchBlocks })
  else (.ok none, s)

end MetaService

/-- What the service reacts to: the events it listens to, and the interval. -/
inductive MetaEvent where
  | enqueueBlocks (size : ℕ)
  | filteringBlocks (height : ℕ)
  | fetchBlock
  | rpcCall
  | blockFilteringSpeed

structure Occurrence where
  event : MetaEvent
  now : ℤ

open MetaService in
/-- The service, reacting to one event after the other. The interval outputs its outcome. -/
def metaMachine (profiler : Bool) : Machine MetaService Occurrence (Except JsError (Option Report))
    where
  step s o :=
    match o.event with
    | .enqueueBlocks size => handleEnqueueBlocks o.now size s
    | .filteringBlocks height => handleFilteringBlocks height s
    | .fetchBlock => handleFetchBlock o.now s
    | .rpcCall => handleRpcCall o.now s
    | .blockFilteringSpeed => (blockFilteringSpeed profiler o.now s).2
  output s o :=
    match o.event with
    | .blockFilteringSpeed => some (blockFilteringSpeed profiler o.now s).1
    | _ => none

/-! ### What happened -/

/-- The counters that start at zero. -/
inductive Counter where
  | enqueueBlocks
  | fetchBlocks
  | rpcCalls

namespace Counter

/-- What an event adds. -/
def amount : Counter → MetaEvent → ℤ
  | enqueueBlocks, .enqueueBlocks size => size
  | fetchBlocks, .fetchBlock => 1
  | rpcCalls, .rpcCall => 1
  | _, _ => 0

def total (c : Counter) (history : List Occurrence) : ℤ :=
  (history.map fun o => c.amount o.event).sum

/-- The part of a report that is about a counter. -/
def field : Counter → Report → ℤ
  | enqueueBlocks => Report.count
  | fetchBlocks => Report.fetchCount
  | rpcCalls => Report.rpcCalls

def acc : Counter → MetaService → ℤ
  | enqueueBlocks => MetaService.accEnqueueBlocks
  | fetchBlocks => MetaService.accFetchBlocks
  | rpcCalls => MetaService.accRpcCalls

def lastReported : Counter → MetaService → ℤ
  | enqueueBlocks => MetaService.lastReportedEnqueueBlocks
  | fetchBlocks => MetaService.lastReportedFetchBlocks
  | rpcCalls => MetaService.lastReportedRpcCalls

end Counter

/-- The events that start the clock. -/
def MetaEvent.starts : MetaEvent → Bool
  | enqueueBlocks _ => true
  | fetchBlock => true
  | rpcCall => true
  | _ => false

def MetaEvent.height? : MetaEvent → Option ℕ
  | filteringBlocks height => some height
  | _ => none

def heights (history : List Occurrence) : List ℕ := history.filterMap (·.event.height?)

/-- How far filtering has got from the first height. -/
def filtered (history : List Occurrence) : ℤ :=
  ((heights history).getLast?.getD 0 : ℕ) - ((heights history).head?.getD 0 : ℕ)

/-! ### What was reported -/

/-- A number of the report that a tick gives, if it gives one. -/
def reportedIn (field : Report → ℤ) : Except JsError (Option Report) → ℤ
  | .ok (some report) => field report
  | _ => 0

/-- What the reports of a history add up to, with the profiler enabled. -/
def reported (field : Report → ℤ) (history : List Occurrence) : ℤ :=
  (((metaMachine true).outputs .fresh history).map (reportedIn field)).sum

/-- The state after a history, with the profiler enabled. -/
def after (history : List Occurrence) : MetaService := (metaMachine true).run .fresh history

def tick (now : ℤ) : Occurrence := ⟨.blockFilteringSpeed, now⟩

/-- **A tick after a history is accounted for.** It does not fail, and the reports up to this one
add up to what has happened. -/
structure AccountedAt (before : List Occurrence) (now : ℤ) : Prop where
  returns : ∃ report, (metaMachine true).output (after before) (tick now) = some (.ok (some report))
  counts : ∀ c : Counter, reported c.field (before ++ [tick now]) = c.total before
  filtering : reported Report.filteringCount (before ++ [tick now]) = filtered before

/-- Every tick of a history is accounted for. -/
def Accounted (history : List Occurrence) : Prop :=
  ∀ before now rest, history = before ++ tick now :: rest → AccountedAt before now

/-- What comes before the clock is started. -/
def unstarted (history : List Occurrence) : List Occurrence :=
  history.takeWhile fun o => !o.event.starts

/-- The clock was started, when the height filtered was still the first one. Without any height
before, it has to be height 0. -/
def Grounded (before : List Occurrence) : Prop :=
  (∃ o ∈ before, o.event.starts = true) ∧
    (heights (unstarted before)).getLast?.getD 0 = (heights before).head?.getD 0

/-! ### What a tick does -/

open MetaService

variable {c : Counter} {o : Occurrence} {s : MetaService} {before history : List Occurrence}
  {now ts : ℤ}

/-- Without a clock a tick fails. By then it counts all blocks as reported. -/
theorem tick_of_none (h : s.lastStatsReportedTs = none) :
    (metaMachine true).step s ⟨.blockFilteringSpeed, now⟩ =
        { s with lastReportedEnqueueBlocks := s.accEnqueueBlocks } ∧
      (metaMachine true).output s ⟨.blockFilteringSpeed, now⟩ =
        some (.error (typeError "Cannot read properties of undefined (reading 'getTime')")) := by
  simp [metaMachine, blockFilteringSpeed, h]

theorem tick_of_some (h : s.lastStatsReportedTs = some ts) :
    (metaMachine true).step s ⟨.blockFilteringSpeed, now⟩ =
        { s with
          lastStatsReportedTs := some now
          lastReportedEnqueueBlocks := s.accEnqueueBlocks
          lastReportedFilteringBlockNum := s.currentFilteringBlockNum
          lastReportedRpcCalls := s.accRpcCalls
          lastReportedFetchBlocks := s.accFetchBlocks } ∧
      (metaMachine true).output s ⟨.blockFilteringSpeed, now⟩ =
        some (.ok (some
          { count := s.accEnqueueBlocks - s.lastReportedEnqueueBlocks
            filteringCount := s.currentFilteringBlockNum - s.lastReportedFilteringBlockNum
            rpcCalls := s.accRpcCalls - s.lastReportedRpcCalls
            fetchCount := s.accFetchBlocks - s.lastReportedFetchBlocks
            timepass := now - ts })) := by
  simp [metaMachine, blockFilteringSpeed, h]

theorem output_tick_returns_iff :
    (∃ report, (metaMachine true).output s (tick now) = some (.ok (some report))) ↔
      s.lastStatsReportedTs.isSome = true := by
  cases hts : s.lastStatsReportedTs with
  | none => simp [tick, (tick_of_none hts).2]
  | some ts => simp [tick, (tick_of_some hts).2]

theorem lastReported_tick (c : Counter) (h : s.lastStatsReportedTs.isSome = true) :
    c.lastReported ((metaMachine true).step s (tick now)) = c.acc s := by
  obtain ⟨ts, hts⟩ := Option.isSome_iff_exists.mp h
  rw [tick, (tick_of_some hts).1]
  cases c <;> rfl

theorem lastReportedFilteringBlockNum_tick (h : s.lastStatsReportedTs.isSome = true) :
    ((metaMachine true).step s (tick now)).lastReportedFilteringBlockNum =
      s.currentFilteringBlockNum := by
  obtain ⟨ts, hts⟩ := Option.isSome_iff_exists.mp h
  rw [tick, (tick_of_some hts).1]

/-! ### The counters along a run -/

theorem acc_step (c : Counter) (s : MetaService) (o : Occurrence) :
    c.acc ((metaMachine true).step s o) = c.acc s + c.amount o.event := by
  obtain ⟨event, now⟩ := o
  cases event with
  | blockFilteringSpeed =>
    cases hts : s.lastStatsReportedTs with
    | none =>
      rw [(tick_of_none hts).1]
      cases c <;> simp [Counter.acc, Counter.amount]
    | some ts =>
      rw [(tick_of_some hts).1]
      cases c <;> simp [Counter.acc, Counter.amount]
  | _ =>
    cases c <;> simp [metaMachine, handleEnqueueBlocks, handleFilteringBlocks, handleFetchBlock,
      handleRpcCall, startClock, Counter.acc, Counter.amount]

theorem acc_after (c : Counter) (history : List Occurrence) :
    c.acc (after history) = c.total history := by
  have hrun := Machine.run_eq_add_sum_inputs (acc_step c) .fresh history
  have hfresh : c.acc .fresh = 0 := by cases c <;> rfl
  rw [hfresh, zero_add] at hrun
  exact hrun

/-- The clock runs once an event has started it. -/
theorem isSome_step (s : MetaService) (o : Occurrence) :
    ((metaMachine true).step s o).lastStatsReportedTs.isSome =
      (s.lastStatsReportedTs.isSome || o.event.starts) := by
  obtain ⟨event, now⟩ := o
  cases event with
  | blockFilteringSpeed =>
    cases hts : s.lastStatsReportedTs with
    | none => simp [(tick_of_none hts).1, MetaEvent.starts, hts]
    | some ts => simp [(tick_of_some hts).1]
  | _ => simp [metaMachine, handleEnqueueBlocks, handleFilteringBlocks, handleFetchBlock,
      handleRpcCall, startClock, MetaEvent.starts]

theorem isSome_run (s : MetaService) (history : List Occurrence) :
    ((metaMachine true).run s history).lastStatsReportedTs.isSome =
      (s.lastStatsReportedTs.isSome || history.any (·.event.starts)) := by
  induction history generalizing s with
  | nil => simp
  | cons o history ih => rw [Machine.run_cons, ih, isSome_step, List.any_cons, Bool.or_assoc]

theorem started_iff :
    (after history).lastStatsReportedTs.isSome = true ↔ ∃ o ∈ history, o.event.starts = true := by
  rw [after, isSome_run, ← List.any_eq_true]
  rfl

/-- While the clock stands still nothing is enqueued that was not reported. -/
def Settled (s : MetaService) : Prop :=
  s.lastStatsReportedTs = none → s.lastReportedEnqueueBlocks = s.accEnqueueBlocks

theorem settled_step (s : MetaService) (o : Occurrence) (h : Settled s) :
    Settled ((metaMachine true).step s o) := by
  obtain ⟨event, now⟩ := o
  cases event with
  | blockFilteringSpeed =>
    cases hts : s.lastStatsReportedTs with
    | none => simp [(tick_of_none hts).1, Settled]
    | some ts => simp [(tick_of_some hts).1, Settled]
  | filteringBlocks height => exact h
  | _ =>
    cases hts : s.lastStatsReportedTs <;>
      simp [metaMachine, handleEnqueueBlocks, handleFetchBlock, handleRpcCall, startClock, Settled,
        hts]

/-- The last reported value moves by what is reported. A tick that fails has moved it as well, but
by nothing. -/
theorem lastReported_step (c : Counter) (s : MetaService) (o : Occurrence) (h : Settled s) :
    c.lastReported ((metaMachine true).step s o) = c.lastReported s +
      (((metaMachine true).output s o).toList.map (reportedIn c.field)).sum := by
  obtain ⟨event, now⟩ := o
  cases event with
  | blockFilteringSpeed =>
    cases hts : s.lastStatsReportedTs with
    | none =>
      have hsettled := h hts
      rw [(tick_of_none hts).1, (tick_of_none hts).2]
      cases c <;> simp [Counter.lastReported, reportedIn, hsettled]
    | some ts =>
      rw [(tick_of_some hts).1, (tick_of_some hts).2]
      cases c <;> simp [Counter.lastReported, Counter.field, reportedIn]
  | _ =>
    cases c <;> simp [metaMachine, handleEnqueueBlocks, handleFilteringBlocks, handleFetchBlock,
      handleRpcCall, startClock, Counter.lastReported]

/-- **What the reports of a run add up to**, for a counter that starts at zero. -/
theorem Counter.reported_eq (c : Counter) (history : List Occurrence) :
    reported c.field history = c.lastReported (after history) := by
  have hrun := Machine.run_eq_add_sum_outputs settled_step (lastReported_step c)
    (s := .fresh) (fun _ => rfl) history
  have hfresh : c.lastReported .fresh = 0 := by cases c <;> rfl
  rw [hfresh, zero_add] at hrun
  exact hrun.symm

/-! ### The heights along a run -/

theorem currentFilteringBlockNum_step (s : MetaService) (o : Occurrence) :
    ((metaMachine true).step s o).currentFilteringBlockNum =
      (o.event.height?.map Nat.cast).getD s.currentFilteringBlockNum := by
  obtain ⟨event, now⟩ := o
  cases event with
  | blockFilteringSpeed =>
    cases hts : s.lastStatsReportedTs with
    | none => simp [(tick_of_none hts).1, MetaEvent.height?]
    | some ts => simp [(tick_of_some hts).1, MetaEvent.height?]
  | _ => rfl

theorem heights_cons (o : Occurrence) (history : List Occurrence) :
    heights (o :: history) = o.event.height?.toList ++ heights history := by
  rw [heights, List.filterMap_cons]
  cases o.event.height? <;> rfl

theorem currentFilteringBlockNum_run (s : MetaService) (history : List Occurrence) :
    ((metaMachine true).run s history).currentFilteringBlockNum =
      ((heights history).getLast?.map Nat.cast).getD s.currentFilteringBlockNum := by
  induction history generalizing s with
  | nil => rfl
  | cons o history ih =>
    rw [Machine.run_cons, ih, currentFilteringBlockNum_step, heights_cons, List.getLast?_append]
    cases (heights history).getLast? <;> cases o.event.height? <;> rfl

theorem currentFilteringBlockNum_after (history : List Occurrence) :
    (after history).currentFilteringBlockNum = ((heights history).getLast?.getD 0 : ℕ) := by
  rw [after, currentFilteringBlockNum_run]
  cases (heights history).getLast? <;> rfl

/-- While the clock stands still, the height that counts as reported is the current one. -/
def Rebased (s : MetaService) : Prop :=
  s.lastStatsReportedTs = none ∧
    s.lastReportedFilteringBlockNum = s.currentFilteringBlockNum

/-- Without an event that starts the clock, the height is rebased and nothing is reported. -/
theorem rebased_step (h : Rebased s) (hstarts : o.event.starts = false) :
    Rebased ((metaMachine true).step s o) ∧
      (((metaMachine true).output s o).toList.map (reportedIn Report.filteringCount)).sum = 0 := by
  obtain ⟨event, now⟩ := o
  obtain ⟨hts, hlast⟩ := h
  cases event with
  | blockFilteringSpeed =>
    rw [(tick_of_none hts).1, (tick_of_none hts).2]
    simp [Rebased, reportedIn, hts, hlast]
  | filteringBlocks height => simp [metaMachine, handleFilteringBlocks, Rebased, hts]
  | _ => cases hstarts

theorem rebased_run (h : Rebased s) (hstarts : ∀ o ∈ history, o.event.starts = false) :
    Rebased ((metaMachine true).run s history) ∧
      (((metaMachine true).outputs s history).map (reportedIn Report.filteringCount)).sum = 0 := by
  induction history generalizing s with
  | nil => exact ⟨h, rfl⟩
  | cons o history ih =>
    rw [List.forall_mem_cons] at hstarts
    obtain ⟨hstep, hnone⟩ := rebased_step h hstarts.1
    obtain ⟨hrun, hnothing⟩ := ih hstep hstarts.2
    refine ⟨hrun, ?_⟩
    rw [Machine.outputs_cons, List.map_append, List.sum_append, hnone, hnothing, add_zero]

/-- From the event that starts the clock on, the reported height moves by what is reported. -/
theorem lastReportedFilteringBlockNum_step
    (h : s.lastStatsReportedTs.isSome = true ∨ o.event.starts = true) :
    ((metaMachine true).step s o).lastReportedFilteringBlockNum =
      s.lastReportedFilteringBlockNum +
        (((metaMachine true).output s o).toList.map (reportedIn Report.filteringCount)).sum := by
  obtain ⟨event, now⟩ := o
  cases hts : s.lastStatsReportedTs with
  | none =>
    rw [hts] at h
    cases event with
    | filteringBlocks height => simp [MetaEvent.starts] at h
    | blockFilteringSpeed => simp [MetaEvent.starts] at h
    | _ => simp [metaMachine, handleEnqueueBlocks, handleFetchBlock, handleRpcCall, startClock]
  | some ts =>
    cases event with
    | blockFilteringSpeed =>
      rw [(tick_of_some hts).1, (tick_of_some hts).2]
      simp [reportedIn]
    | _ => simp [metaMachine, handleEnqueueBlocks, handleFilteringBlocks, handleFetchBlock,
        handleRpcCall, startClock, hts]

theorem lastReportedFilteringBlockNum_run (hstarts : o.event.starts = true)
    (history : List Occurrence) :
    ((metaMachine true).run s (o :: history)).lastReportedFilteringBlockNum =
      s.lastReportedFilteringBlockNum + (((metaMachine true).outputs s (o :: history)).map
        (reportedIn Report.filteringCount)).sum := by
  have hstep := lastReportedFilteringBlockNum_step (s := s) (.inr hstarts)
  have hstarted : ((metaMachine true).step s o).lastStatsReportedTs.isSome = true := by
    rw [isSome_step, hstarts, Bool.or_true]
  have hrun := Machine.run_eq_add_sum_outputs (I := fun s => s.lastStatsReportedTs.isSome = true)
    (fun s o hs => by rw [isSome_step, hs, Bool.true_or])
    (fun s o hs => lastReportedFilteringBlockNum_step (.inl hs)) hstarted history
  rw [Machine.run_cons, hrun, hstep, Machine.outputs_cons, List.map_append, List.sum_append,
    add_assoc]

/-- A history up to the event that starts the clock, and from there. -/
theorem exists_start (h : ∃ o ∈ history, o.event.starts = true) :
    ∃ o rest, history = unstarted history ++ o :: rest ∧ o.event.starts = true := by
  induction history with
  | nil => simp at h
  | cons o history ih =>
    cases hstarts : o.event.starts with
    | true => exact ⟨o, history, by simp [unstarted, hstarts], hstarts⟩
    | false =>
      rw [List.exists_mem_cons_iff, hstarts] at h
      obtain ⟨o', rest, hhistory, ho'⟩ := ih (h.resolve_left Bool.false_ne_true)
      refine ⟨o', rest, ?_, ho'⟩
      rw [unstarted, List.takeWhile_cons_of_pos (by simp [hstarts]), List.cons_append]
      exact congrArg (o :: ·) hhistory

theorem starts_of_mem_unstarted (h : o ∈ unstarted history) : o.event.starts = false := by
  simpa using List.mem_takeWhile_imp h

/-- **What the reports of a run add up to**, for the height: it lacks the height filtered last
before the clock was started. -/
theorem reported_filtering_eq (h : ∃ o ∈ history, o.event.starts = true) :
    ((heights (unstarted history)).getLast?.getD 0 : ℕ) +
        reported Report.filteringCount history =
      (after history).lastReportedFilteringBlockNum := by
  obtain ⟨o, rest, hhistory, ho⟩ := exists_start h
  have hfresh : Rebased .fresh := ⟨rfl, rfl⟩
  obtain ⟨⟨-, hbase⟩, hnothing⟩ :=
    rebased_run hfresh fun _ (ho : _ ∈ unstarted history) => starts_of_mem_unstarted ho
  have hcurrent := currentFilteringBlockNum_after (unstarted history)
  rw [after] at hcurrent
  have hreported : reported Report.filteringCount history =
      (((metaMachine true).outputs ((metaMachine true).run .fresh (unstarted history))
        (o :: rest)).map (reportedIn Report.filteringCount)).sum := by
    conv_lhs => rw [hhistory, reported, Machine.outputs_append, List.map_append, List.sum_append,
      hnothing, zero_add]
  have hafter : after history =
      (metaMachine true).run ((metaMachine true).run .fresh (unstarted history)) (o :: rest) := by
    conv_lhs => rw [hhistory, after, Machine.run_append]
  rw [hreported, hafter, lastReportedFilteringBlockNum_run ho, hbase, hcurrent]

/-! ### Ticks -/

theorem after_append_tick (before : List Occurrence) (now : ℤ) :
    after (before ++ [tick now]) = (metaMachine true).step (after before) (tick now) :=
  Machine.run_append ..

/-- The event that starts the clock lies before the tick. -/
theorem unstarted_append_tick (h : ∃ o ∈ before, o.event.starts = true) :
    unstarted (before ++ [tick now]) = unstarted before := by
  obtain ⟨o, ho, hstarts⟩ := h
  rw [unstarted, List.takeWhile_append, if_neg, unstarted]
  intro hlength
  have hself := (List.takeWhile_sublist _).eq_of_length hlength
  have hall := List.takeWhile_eq_self_iff.mp hself o ho
  simp [hstarts] at hall

/-- **When a tick is accounted for**: when the clock was started at the first height. -/
theorem accountedAt_iff : AccountedAt before now ↔ Grounded before := by
  have hfiltering (hstarted : ∃ o ∈ before, o.event.starts = true) :
      ((heights (unstarted before)).getLast?.getD 0 : ℕ) +
        reported Report.filteringCount (before ++ [tick now]) =
          ((heights before).getLast?.getD 0 : ℕ) := by
    have hbefore : ∃ o ∈ before ++ [tick now], o.event.starts = true :=
      hstarted.imp fun o ho => ⟨List.mem_append_left _ ho.1, ho.2⟩
    have hreported := reported_filtering_eq hbefore
    rw [unstarted_append_tick hstarted, after_append_tick,
      lastReportedFilteringBlockNum_tick (started_iff.mpr hstarted),
      currentFilteringBlockNum_after] at hreported
    exact hreported
  constructor
  · rintro ⟨hreturns, -, hheight⟩
    have hstarted := started_iff.mp (output_tick_returns_iff.mp hreturns)
    refine ⟨hstarted, ?_⟩
    have hsum := hfiltering hstarted
    rw [hheight, filtered] at hsum
    omega
  · rintro ⟨hstarted, hbase⟩
    have hclock := started_iff.mpr hstarted
    refine ⟨output_tick_returns_iff.mpr hclock, fun c => ?_, ?_⟩
    · rw [c.reported_eq, after_append_tick, lastReported_tick c hclock, acc_after]
    · have hsum := hfiltering hstarted
      rw [filtered]
      omega

/-- **The runs whose every tick reports what happened.** Whatever the order of events, the three
counters are never wrong at a tick that returns. What can be wrong is that the clock was not
started, and the height at which it was. -/
theorem accounted_iff (history : List Occurrence) :
    Accounted history ↔
      ∀ before now rest, history = before ++ tick now :: rest → Grounded before :=
  forall₄_congr fun _ _ _ _ => accountedAt_iff

/-- A tick before any event fails, an enqueue before the first height reports that height as
progress, and a second height before the first enqueue is not reported at all. -/
theorem not_accounted :
    ¬ Accounted [tick 10000] ∧
      ¬ Accounted [⟨.enqueueBlocks 1, 0⟩, ⟨.filteringBlocks 100, 1⟩, tick 10000] ∧
        ¬ Accounted [⟨.filteringBlocks 100, 0⟩, ⟨.filteringBlocks 101, 1⟩, ⟨.enqueueBlocks 1, 2⟩,
          tick 10000] := by
  refine ⟨fun h => ?_, fun h => ?_, fun h => ?_⟩
  · obtain ⟨report, hreport⟩ := (h [] 10000 [] rfl).returns
    cases hreport
  · have hfiltering := (h [⟨.enqueueBlocks 1, 0⟩, ⟨.filteringBlocks 100, 1⟩] 10000 [] rfl).filtering
    revert hfiltering
    decide
  · have hfiltering := (h [⟨.filteringBlocks 100, 0⟩, ⟨.filteringBlocks 101, 1⟩,
      ⟨.enqueueBlocks 1, 2⟩] 10000 [] rfl).filtering
    revert hfiltering
    decide

end SubqlConcordium
