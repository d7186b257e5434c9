import DeconzRest.Thermostat.Commands
import Mathlib.Data.List.Perm.Basic

/-!
# Reading a weekly schedule day by day

`addTaskThermostatGetSchedule` starts seven single shot timers, and each of them asks for the
next day.  The task template and the day counter are there once for all thermostats, so a
request while timers of an earlier one still run takes both away from it.
-/

namespace DeconzRest
namespace Thermostat

open Tasks Transition List

variable {Addr : Type}

/-- What `copyTaskReq` copies: where a request goes to, and how. -/
structure Target (Addr : Type) where
  dstAddress : Addr
  dstAddressMode : AddressMode
  srcEndpoint : UInt8
  dstEndpoint : UInt8
  radius : UInt8
  txOptions : UInt8
  sendDelay : Int
deriving DecidableEq, Repr

def target (task : TaskItem Addr) : Target Addr where
  dstAddress := task.req.dstAddress
  dstAddressMode := task.req.dstAddressMode
  srcEndpoint := task.req.srcEndpoint
  dstEndpoint := task.req.dstEndpoint
  radius := task.req.radius
  txOptions := task.req.txOptions
  sendDelay := task.req.sendDelay

/-- `copyTaskReq`, which changes the task `b`. -/
def copyTaskReq (a b : TaskItem Addr) : TaskItem Addr :=
  { b with
    req := { b.req with
      dstAddress := a.req.dstAddress
      dstAddressMode := a.req.dstAddressMode
      srcEndpoint := a.req.srcEndpoint
      dstEndpoint := a.req.dstEndpoint
      radius := a.req.radius
      txOptions := a.req.txOptions
      sendDelay := a.req.sendDelay }
    zclFrame := { b.zclFrame with payload := [] } }

@[simp] theorem target_copyTaskReq (a b : TaskItem Addr) : target (copyTaskReq a b) = target a :=
  rfl

/-- `taskScheduleTimer`, `dayofweekTimer` and `zclSeq`, the number of timers that run, and what
was requested and handed to `addTask` so far. -/
structure ScheduleReads (Addr : Type) where
  taskScheduleTimer : TaskItem Addr
  dayofweekTimer : Nat := 0
  zclSeq : UInt8 := 0
  running : Nat := 0
  requested : List (TaskItem Addr) := []
  added : List (TaskItem Addr) := []
deriving DecidableEq, Repr

/-- A call of `addTaskThermostatGetSchedule`, or a timer that expires.  The timers all call the
same function without an argument, so it does not matter which one it is; `fresh` is the task
that the function constructs. -/
inductive ReadEvent (Addr : Type) where
  | getSchedule (task : TaskItem Addr)
  | timeout (fresh : TaskItem Addr)
deriving DecidableEq, Repr

/-- `(uint8_t) (1 << n)`; what an `int` is after a shift by more than its width is left open. -/
def dayBit (overshift : Nat → UInt8) (n : Nat) : UInt8 :=
  if n < 32 then UInt8.ofNat (2 ^ n) else overshift n

namespace ScheduleReads

variable (overshift : Nat → UInt8)

/-- `addTaskThermostatGetSchedule` -/
def addTaskThermostatGetSchedule (s : ScheduleReads Addr) (task : TaskItem Addr) :
    ScheduleReads Addr :=
  { s with
    taskScheduleTimer := copyTaskReq task s.taskScheduleTimer
    dayofweekTimer := 0
    -- one timer for each second from the second to the eighth
    running := s.running + 7
    requested := s.requested ++ [task] }

/-- `addTaskThermostatGetScheduleTimer` -/
def addTaskThermostatGetScheduleTimer (s : ScheduleReads Addr) (fresh : TaskItem Addr) :
    ScheduleReads Addr :=
  let task := copyTaskReq s.taskScheduleTimer fresh
  let dayofweek := dayBit overshift s.dayofweekTimer
  { s with
    dayofweekTimer := s.dayofweekTimer + 1
    zclSeq := s.zclSeq + 1
    running := s.running - 1
    added := s.added ++ (addTaskThermostatCmd task s.zclSeq 0 0x02 0 dayofweek).toList }

def step (s : ScheduleReads Addr) : ReadEvent Addr → ScheduleReads Addr
  | .getSchedule task => s.addTaskThermostatGetSchedule task
  | .timeout fresh => s.addTaskThermostatGetScheduleTimer overshift fresh

def TimerRuns (s : ScheduleReads Addr) : ReadEvent Addr → Prop
  | .getSchedule _ => True
  | .timeout _ => 0 < s.running

instance (s : ScheduleReads Addr) : (event : ReadEvent Addr) → Decidable (TimerRuns s event)
  | .getSchedule _ => .isTrue trivial
  | .timeout _ => inferInstanceAs (Decidable (0 < s.running))

/-- No timer runs when a schedule is asked for. -/
def NoOverlap (s : ScheduleReads Addr) : ReadEvent Addr → Prop
  | .getSchedule _ => s.running = 0
  | .timeout _ => True

end ScheduleReads

/-- A command as the device at the target sees it. -/
structure SentCommand (Addr : Type) where
  target : Target Addr
  clusterId : UInt16
  commandId : UInt8
  payload : List UInt8
deriving DecidableEq, Repr

def sentCommand (task : TaskItem Addr) : SentCommand Addr where
  target := target task
  clusterId := task.req.clusterId
  commandId := task.zclFrame.commandId
  payload := task.zclFrame.payload

def getWeeklySchedule (target : Target Addr) (day : UInt8) : SentCommand Addr where
  target := target
  clusterId := thermostatClusterId
  commandId := 0x02
  payload := [day, 0x01]

def weekdayBits : List UInt8 := (List.range 7).map fun n => UInt8.ofNat (2 ^ n)

def weekOf (task : TaskItem Addr) : List (SentCommand Addr) :=
  weekdayBits.map (getWeeklySchedule (target task))

namespace ScheduleReads

variable (overshift : Nat → UInt8)

/-- Each request led to exactly one command for each weekday, sent to its own target. -/
def Served (s : ScheduleReads Addr) : Prop :=
  (s.added.map sentCommand).Perm (s.requested.flatMap weekOf)

theorem sent_timeout (s : ScheduleReads Addr) (fresh : TaskItem Addr) :
    (step overshift s (.timeout fresh)).added.map sentCommand =
      s.added.map sentCommand ++
        [getWeeklySchedule (target s.taskScheduleTimer) (dayBit overshift s.dayofweekTimer)] := by
  simp only [step, addTaskThermostatGetScheduleTimer, addTaskThermostatCmd_get, Option.toList,
    map_append, map_cons, map_nil]
  rfl

theorem weekdayBits_length : weekdayBits.length = 7 := by
  simp [weekdayBits]

theorem weekOf_take_succ (task : TaskItem Addr) {n : Nat} (hn : n < 7) :
    (weekOf task).take (n + 1) = (weekOf task).take n ++
      [getWeeklySchedule (target task) (dayBit overshift n)] := by
  have hlength : n < (weekOf task).length := by
    rw [weekOf, length_map, weekdayBits_length]
    exact hn
  have hwidth : n < 32 := by omega
  rw [take_succ_eq_append_getElem hlength]
  simp [weekOf, weekdayBits, dayBit, hwidth]

theorem weekOf_take_seven (task : TaskItem Addr) : (weekOf task).take 7 = weekOf task := by
  apply take_of_length_le
  rw [weekOf, length_map, weekdayBits_length]

/-- Of the last request as many days were asked for as timers have expired, of all before it
the whole week. -/
def InTurn (s : ScheduleReads Addr) : Prop :=
  s.running + s.dayofweekTimer = 7 ∧ ∃ earlier last, s.requested = earlier ++ [last] ∧
    target s.taskScheduleTimer = target last ∧
    s.added.map sentCommand = earlier.flatMap weekOf ++ (weekOf last).take s.dayofweekTimer

/-- No request was made yet, or they are served in turn. -/
def Undisturbed (s : ScheduleReads Addr) : Prop :=
  (s.running = 0 ∧ s.requested = [] ∧ s.added = []) ∨ InTurn s

variable {s : ScheduleReads Addr}

theorem undisturbed_served (h : Undisturbed s) (hdone : s.running = 0) :
    s.added.map sentCommand = s.requested.flatMap weekOf := by
  rcases h with ⟨-, hrequested, hadded⟩ | ⟨hcount, earlier, last, hrequested, -, hadded⟩
  · rw [hrequested, hadded]
    rfl
  · have hseven : s.dayofweekTimer = 7 := by omega
    rw [hadded, hrequested, hseven, weekOf_take_seven]
    simp

theorem undisturbed_step {event : ReadEvent Addr} (hruns : TimerRuns s event)
    (hno : NoOverlap s event) (h : Undisturbed s) :
    Undisturbed (step overshift s event) := by
  cases event with
  | getSchedule task =>
    -- the week of the request before is complete
    have hadded := undisturbed_served h hno
    refine .inr ⟨?_, s.requested, task, rfl, rfl, ?_⟩
    · simp only [step, addTaskThermostatGetSchedule]
      simp only [NoOverlap] at hno
      omega
    · simpa [step, addTaskThermostatGetSchedule] using hadded
  | timeout fresh =>
    rcases h with ⟨hnone, -, -⟩ | ⟨hcount, earlier, last, hrequested, htarget, hadded⟩
    · simp only [TimerRuns] at hruns
      omega
    · simp only [TimerRuns] at hruns
      refine .inr ⟨?_, earlier, last, hrequested, htarget, ?_⟩
      · simp only [step, addTaskThermostatGetScheduleTimer]
        omega
      · rw [sent_timeout, hadded, htarget, append_assoc,
          ← weekOf_take_succ overshift last (by omega)]
        rfl

def Stray (s : ScheduleReads Addr) : Prop :=
  ∃ command ∈ s.added.map sentCommand, ∀ task, command ∉ weekOf task

/-- A stray command was sent, or timers run for more days than are left. -/
def Disturbed (s : ScheduleReads Addr) : Prop :=
  Stray s ∨ (s.dayofweekTimer ≤ 7 ∧ 8 ≤ s.running + s.dayofweekTimer)

theorem eighth_day_stray (to' : Target Addr) (task : TaskItem Addr) :
    getWeeklySchedule to' (dayBit overshift 7) ∉ weekOf task := by
  intro hmem
  obtain ⟨day, hday, heq⟩ := mem_map.mp hmem
  have hpayload : day = 128 := by simpa [getWeeklySchedule, dayBit] using congrArg (·.payload) heq
  subst hpayload
  revert hday
  decide

theorem overlap_disturbs {event : ReadEvent Addr} (h : ¬ NoOverlap s event) :
    Disturbed (step overshift s event) := by
  cases event with
  | timeout fresh => exact absurd trivial h
  | getSchedule task =>
    refine .inr ⟨?_, ?_⟩
    · exact Nat.zero_le 7
    · simp only [NoOverlap] at h
      simp only [step, addTaskThermostatGetSchedule]
      omega

theorem disturbed_step (event : ReadEvent Addr) (h : Disturbed s) :
    Disturbed (step overshift s event) := by
  cases event with
  | getSchedule task =>
    rcases h with hstray | ⟨hdays, hcount⟩
    · exact .inl hstray
    · refine .inr ⟨Nat.zero_le 7, ?_⟩
      simp only [step, addTaskThermostatGetSchedule]
      omega
  | timeout fresh =>
    rcases h with ⟨command, hmem, hstray⟩ | ⟨hdays, hcount⟩
    · refine .inl ⟨command, ?_, hstray⟩
      rw [sent_timeout]
      exact mem_append_left _ hmem
    · by_cases hlast : s.dayofweekTimer = 7
      · -- the counter has gone past the week
        refine .inl ⟨_, ?_, eighth_day_stray overshift (target s.taskScheduleTimer)⟩
        rw [sent_timeout, hlast]
        exact mem_append_right _ mem_cons_self
      · refine .inr ⟨?_, ?_⟩
        · simp only [step, addTaskThermostatGetScheduleTimer]
          omega
        · simp only [step, addTaskThermostatGetScheduleTimer]
          omega

theorem disturbed_not_served (h : Disturbed s) (hdone : s.running = 0) : ¬ Served s := by
  intro hserved
  rcases h with ⟨command, hmem, hstray⟩ | ⟨hdays, hcount⟩
  · obtain ⟨task, -, hweek⟩ := mem_flatMap.mp (hserved.mem_iff.mp hmem)
    exact hstray task hweek
  · omega

/-- What is there before the first request -/
def initial (template : TaskItem Addr) (zclSeq : UInt8) : ScheduleReads Addr :=
  { taskScheduleTimer := template, zclSeq := zclSeq }

/-- **When the reads do not interfere**: once all timers have expired, every request was served
if and only if none was made while a timer of an earlier one ran. -/
theorem reads_served_iff (template : TaskItem Addr) (zclSeq : UInt8)
    (events : List (ReadEvent Addr))
    (hruns : AllSteps (step overshift) TimerRuns (initial template zclSeq) events)
    (hdone : (run (step overshift) (initial template zclSeq) events).running = 0) :
    Served (run (step overshift) (initial template zclSeq) events) ↔
      AllSteps (step overshift) NoOverlap (initial template zclSeq) events := by
  constructor
  · intro hserved k hk
    by_contra hoverlap
    -- from the overlap on the state stays disturbed
    have hfrom : Disturbed (stateAt (step overshift) (initial template zclSeq) events (k + 1)) := by
      rw [stateAt_succ _ _ _ hk]
      exact overlap_disturbs overshift hoverlap
    have hend := stateAt_invariant (P := Disturbed) (fun s a => disturbed_step overshift a) hfrom
      (show k + 1 ≤ events.length by omega)
    rw [stateAt_length] at hend
    exact disturbed_not_served hend hdone hserved
  · intro hno
    have hstart : Undisturbed (initial template zclSeq) := .inl ⟨rfl, rfl, rfl⟩
    have hboth : AllSteps (step overshift) (fun s event => TimerRuns s event ∧ NoOverlap s event)
        (initial template zclSeq) events :=
      fun k hk => ⟨hruns k hk, hno k hk⟩
    have hend := run_invariant_of (P := Undisturbed)
      (fun s event hok => undisturbed_step overshift hok.1 hok.2) hstart hboth
    rw [Served, undisturbed_served hend hdone]

def taskTo (address : Nat) : TaskItem Nat where
  taskType := .identify
  taskId := 0
  req :=
    { id := 1, dstAddressMode := .ext, dstAddress := address, dstEndpoint := 1, srcEndpoint := 1,
      profileId := 0, clusterId := 0, txOptions := 0x04, radius := 0, sendDelay := 0, asdu := [],
      fireAndForget := false }
  zclFrame :=
    { frameControl := 0, manufacturerCode := 0, sequenceNumber := 0, commandId := 0, payload := [] }
  ordered := false
  sendTime := 0
  lightNode := none

def sevenTimeouts : List (ReadEvent Nat) := List.replicate 7 (.timeout (taskTo 0))

/-- One request whose timers have all expired -/
theorem reads_served_iff_single :
    Served (run (step fun _ => 0) (initial (taskTo 0) 0)
      (.getSchedule (taskTo 7) :: sevenTimeouts)) ↔
    AllSteps (step fun _ => 0) NoOverlap (initial (taskTo 0) 0)
      (.getSchedule (taskTo 7) :: sevenTimeouts) :=
  reads_served_iff (fun _ => 0) (taskTo 0) 0 _ (by unfold AllSteps; decide) (by decide)

/-- Two requests at once: the first device is asked for nothing. -/
theorem overlapping_reads_lost :
    ¬ ∀ (template : TaskItem Nat) (zclSeq : UInt8) (events : List (ReadEvent Nat)),
      AllSteps (step fun _ => 0) TimerRuns (initial template zclSeq) events →
      (run (step fun _ => 0) (initial template zclSeq) events).running = 0 →
      Served (run (step fun _ => 0) (initial template zclSeq) events) := by
  intro h
  have hserved := h (taskTo 0) 0
    (.getSchedule (taskTo 7) :: .getSchedule (taskTo 8) :: (sevenTimeouts ++ sevenTimeouts))
    (by unfold AllSteps; decide) (by decide)
  have hasked := hserved.mem_iff (a := getWeeklySchedule (target (taskTo 7)) 1)
  revert hasked
  decide

end ScheduleReads
end Thermostat
end DeconzRest
