import SpsiMaster.Rtos.Objects
import SpsiMaster.Rtos.Scheduler
import SpsiMaster.Rtos.SoftTimer

/-!
# Threads and IPC objects

Semaphores, mutexes and events of `rt-thread/src/ipc.c` with the threads that wait for them, on
the scheduler of `Rtos/Scheduler.lean`. What runs with interrupts disabled is one step. Between
such a region and the `rt_schedule` behind it interrupts may come: the thread is `due` there, and
`isrDue` says the same of the interrupt handlers. A call that waits ends with a step of its own,
after the thread has been woken and runs again.

A waiting time is an `rt_int32_t`. A started thread's timer may run out at any time. `hist` is what
the calls have done, newest first; it is no part of the program.
-/

namespace Rtos

/-- `RT_IPC_FLAG_FIFO`, `RT_IPC_FLAG_PRIO`. -/
inductive IpcFlag where
  | fifo
  | prio
  deriving DecidableEq

/-- `RT_EVENT_FLAG_AND`, `RT_EVENT_FLAG_OR`, `RT_EVENT_FLAG_CLEAR` of `event_info`. -/
structure EventInfo where
  flagAnd : Bool := false
  flagOr : Bool := false
  flagClear : Bool := false
  deriving DecidableEq

/-- The bits a thread that asks for `set` receives from the bits `sent`. -/
def EventInfo.received (info : EventInfo) (set sent : BitVec 32) : Option (BitVec 32) :=
  if info.flagAnd then if set &&& sent = set then some set else none
  else if info.flagOr then if set &&& sent ≠ 0 then some (set &&& sent) else none
  else none

/-- Where a thread stands: in code of its own, behind the `rt_schedule` of a call that waits for
an object, or behind the one of `rt_thread_sleep`. -/
inductive ThreadPc (ι : Type) where
  | own
  | wait (o : IpcObj ι)
  | sleep
  deriving DecidableEq

/-- `struct rt_thread`, the fields of the calls. `timer` is the activated flag of
`thread_timer`; `due` says that the thread is at a call of `rt_schedule`. -/
structure ThreadCall (ι : Type) where
  error : RtErr := .eok
  timer : Bool := false
  eventSet : BitVec 32 := 0
  eventInfo : EventInfo := {}
  pc : ThreadPc ι := .own
  due : Bool := false
  deriving DecidableEq

/-- `RT_MUTEX_VALUE_MAX`. -/
def mutexValueMax : Nat := 65535

/-- `struct rt_mutex`. -/
structure MutexObj (τ : Type) where
  value : Nat := 1
  originalPriority : Nat := 255
  hold : Nat := 0
  owner : Option τ := none
  deriving DecidableEq

/-- The threads and the objects. `waiters` is `parent.suspend_thread`, `flag` is
`parent.parent.flag`, `sem` and `event` are `sem->value` and `event->set`. -/
structure Kernel (τ ι : Type) where
  sched : Sched τ
  thread : τ → ThreadCall ι := fun _ => {}
  isrDue : Bool := false
  waiters : IpcObj ι → List τ := fun _ => []
  flag : IpcObj ι → IpcFlag
  sem : ι → Nat
  mutex : ι → MutexObj τ := fun _ => {}
  event : ι → BitVec 32 := fun _ => 0
  hist : List (KernelEvent τ ι) := []

namespace Kernel

variable {τ ι : Type} [DecidableEq τ] [DecidableEq ι] (k : Kernel τ ι)

/-- `rt_thread_self()`. -/
abbrev self : τ := k.sched.current

abbrev stat (t : τ) : ThreadStat := (k.sched.tcb t).stat
abbrev prio (t : τ) : Nat := (k.sched.tcb t).currentPriority

def setThread (t : τ) (f : ThreadCall ι → ThreadCall ι) : Kernel τ ι :=
  { k with thread := Function.update k.thread t (f (k.thread t)) }

def log (e : KernelEvent τ ι) : Kernel τ ι := { k with hist := e :: k.hist }

/-! ## Waiting and waking -/

/-- The thread leaves the list it waits in for the ready queue. -/
def wakeUp (t : τ) : Kernel τ ι :=
  { k with
    waiters := fun o => (k.waiters o).erase t
    sched := k.sched.insertThread t }

/-- `rt_thread_resume`. -/
def threadResume (t : τ) : Kernel τ ι :=
  if k.stat t = .suspend then (k.setThread t fun c => { c with timer := false }).wakeUp t else k

/-- `rt_thread_suspend`. -/
def threadSuspend (t : τ) : Kernel τ ι :=
  if k.stat t = .ready ∨ k.stat t = .running then
    { k.setThread t fun c => { c with timer := false } with sched := k.sched.threadSuspend t }
  else k

/-- `rt_thread_timeout`, called for a timer that has run out; a failed assertion stops the
program. -/
def threadTimeout (t : τ) : Option (Kernel τ ι) :=
  if k.stat t = .suspend then
    let k := match (k.thread t).pc with
      | .wait o => k.log (.wake t o .etimeout)
      | _ => k
    some { (k.setThread t fun c => { c with timer := false, error := .etimeout }).wakeUp t with
      isrDue := true }
  else none

/-- The search of `_ipc_list_suspend` for the place of a thread of priority `p`. -/
def prioInsert (prio : τ → Nat) (t : τ) : List τ → List τ
  | [] => [t]
  | u :: l => if prio t < prio u then t :: u :: l else u :: prioInsert prio t l

/-- The list of `o` after `t` has joined it. -/
def joined (o : IpcObj ι) (t : τ) : List τ :=
  match k.flag o with
  | .fifo => k.waiters o ++ [t]
  | .prio => prioInsert k.prio t (k.waiters o)

/-- `_ipc_list_suspend`. -/
def ipcListSuspend (o : IpcObj ι) (t : τ) : Kernel τ ι :=
  let k := k.threadSuspend t
  { k with
    waiters := Function.update k.waiters o (k.joined o t)
    sched := k.sched.link t }

/-- `_ipc_list_resume_all`: the threads in the list are suspended ones, so that each turn takes
the head out. -/
def ipcListResumeAll (o : IpcObj ι) : Kernel τ ι :=
  (k.waiters o).foldl (fun k t =>
    ((k.log (.wake t o .error)).setThread t fun c => { c with error := .error }).threadResume t) k

/-- `thread_timer` is set to `ticks` and started: the assertion of `rt_timer_start`. -/
def timerStarts (ticks : UInt32) : Bool := ticks.toNat < tickMax / 2

/-- The running thread is in the list of `o`, with its timer started if there is a time. -/
def waitOn (o : IpcObj ι) (time : Int32) : Kernel τ ι :=
  let t := k.self
  let k := k.ipcListSuspend o t
  let k := if 0 < time then k.setThread t fun c => { c with timer := true } else k
  (k.setThread t fun c => { c with pc := .wait o, due := true }).log (.wait t o)

/-- The running thread waits for `o` up to `time`; a failed assertion stops the program. -/
def waitFor (o : IpcObj ι) (time : Int32) : Option (Kernel τ ι) :=
  if 0 < time ∧ timerStarts time.toUInt32 = false then none else some (k.waitOn o time)

/-- The running thread is at a call of `rt_schedule`. -/
def needSchedule : Kernel τ ι := k.setThread k.self fun c => { c with due := true }

/-! ## Semaphores -/

/-- `rt_sem_take` by the running thread. -/
def semTake (i : ι) (time : Int32) : Option (Kernel τ ι) :=
  if 0 < k.sem i then
    some ({ k with sem := Function.update k.sem i (k.sem i - 1) }.log (.take k.self i))
  else if time = 0 then some k
  else (k.setThread k.self fun c => { c with error := .eok }).waitFor (.sem i) time

/-- `rt_sem_release`, and `need_schedule`. -/
def semRelease (i : ι) : Kernel τ ι × Bool :=
  match k.waiters (.sem i) with
  | t :: _ => (((k.log (.give i)).log (.take t i)).threadResume t, true)
  | [] =>
    if k.sem i < semValueMax then
      ({ k with sem := Function.update k.sem i (k.sem i + 1) }.log (.give i), false)
    else (k, false)

/-- `rt_sem_control` with `RT_IPC_CMD_RESET`. -/
def semReset (i : ι) (value : Nat) : Kernel τ ι :=
  let k := k.ipcListResumeAll (.sem i)
  { k with sem := Function.update k.sem i (value % 65536) }.log (.setValue i (value % 65536))

/-! ## Mutexes -/

def setMutex (i : ι) (m : MutexObj τ) : Kernel τ ι :=
  { k with mutex := Function.update k.mutex i m }

/-- A mutex that is taken for the first time. -/
def mutexFirst (i : ι) : Kernel τ ι :=
  let m := k.mutex i
  let m := { m with
    value := m.value - 1
    owner := some k.self
    originalPriority := k.prio k.self }
  if m.hold < mutexHoldMax then (k.setMutex i { m with hold := m.hold + 1 }).log (.lock k.self i)
  else k.setMutex i m

/-- The owner inherits the priority of the running thread, which waits for the mutex. -/
def inherit (owner : τ) : Kernel τ ι :=
  { k with
    sched :=
      if k.prio k.self < k.prio owner then k.sched.changePriority owner (k.prio k.self)
      else k.sched }

/-- `rt_mutex_take` by the running thread; `none` where it would read the owner of a mutex that
has none. -/
def mutexTake (i : ι) (time : Int32) : Option (Kernel τ ι) :=
  let k := k.setThread k.self fun c => { c with error := .eok }
  let m := k.mutex i
  if m.owner = some k.self then
    if m.hold < mutexHoldMax then
      some ((k.setMutex i { m with hold := m.hold + 1 }).log (.lock k.self i))
    else some k
  else if 0 < m.value then some (k.mutexFirst i)
  else if time = 0 then some (k.setThread k.self fun c => { c with error := .etimeout })
  else m.owner.bind fun owner => (k.inherit owner).waitFor (.mutex i) time

/-- The running thread, the owner of the mutex, gets its priority back. -/
def getBack (i : ι) : Kernel τ ι :=
  { k with
    sched :=
      if (k.mutex i).originalPriority ≠ k.prio k.self then
        k.sched.changePriority k.self (k.mutex i).originalPriority
      else k.sched }

/-- `rt_mutex_release` of a mutex that is no longer held, and `need_schedule`: the mutex goes to
the first thread that waits for it. -/
def mutexHandOver (i : ι) : Kernel τ ι × Bool :=
  let m := k.mutex i
  let k := k.getBack i
  match k.waiters (.mutex i) with
  | t :: _ =>
    let k := k.setMutex i
      { m with owner := some t, originalPriority := k.prio t, hold := m.hold + 1 }
    ((k.log (.lock t i)).threadResume t, true)
  | [] =>
    if m.value < mutexValueMax then
      (k.setMutex i { m with value := m.value + 1, owner := none, originalPriority := 255 }, false)
    else (k, false)

/-- `rt_mutex_release` by the running thread, and `need_schedule`. -/
def mutexRelease (i : ι) : Kernel τ ι × Bool :=
  let m := k.mutex i
  if m.owner ≠ some k.self then (k.setThread k.self fun c => { c with error := .error }, false)
  else
    let m := { m with hold := (m.hold + 255) % 256 }
    let k := (k.setMutex i m).log (.unlock k.self i)
    if m.hold = 0 then k.mutexHandOver i else (k, false)

/-! ## Events -/

/-- The waiting thread `t` receives `set`. -/
def eventAnswer (i : ι) (t : τ) (set : BitVec 32) : Kernel τ ι :=
  let clear := (k.thread t).eventInfo.flagClear
  let k := k.setThread t fun c => { c with eventSet := set }
  let k := if clear then
    { k with event := Function.update k.event i (k.event i &&& ~~~set) } else k
  (k.log (.receive t i set clear)).threadResume t

/-- The search of `rt_event_send` through the list, and `need_schedule`. -/
def eventSearch (i : ι) : List τ → Kernel τ ι → Bool → Kernel τ ι × Bool
  | [], k, need => (k, need)
  | t :: l, k, need =>
    let c := k.thread t
    if c.eventInfo.flagAnd = false ∧ c.eventInfo.flagOr = false then (k, false)
    else
      match c.eventInfo.received c.eventSet (k.event i) with
      | none => eventSearch i l k need
      | some set => eventSearch i l (k.eventAnswer i t set) true

/-- `rt_event_send`, and `need_schedule`. -/
def eventSend (i : ι) (set : BitVec 32) : Kernel τ ι × Bool :=
  if set = 0 then (k, false)
  else
    let k := { k with event := Function.update k.event i (k.event i ||| set) }.log (.send i set)
    eventSearch i (k.waiters (.event i)) k false

/-- `rt_event_recv` by the running thread; a failed assertion stops the program. -/
def eventRecv (i : ι) (set : BitVec 32) (option : EventInfo) (timeout : Int32) :
    Option (Kernel τ ι) :=
  if set = 0 then some k
  else if option.flagAnd = false ∧ option.flagOr = false then none
  else
    let k := k.setThread k.self fun c => { c with error := .eok }
    match option.received set (k.event i) with
    | some bits =>
      let k := k.setThread k.self fun c => { c with eventSet := bits, eventInfo := option }
      let k := if option.flagClear then
        { k with event := Function.update k.event i (k.event i &&& ~~~set) } else k
      some (k.log (.receive k.self i bits option.flagClear))
    | none =>
      if timeout = 0 then some (k.setThread k.self fun c => { c with error := .etimeout })
      else
        let k := k.setThread k.self fun c => { c with eventSet := set, eventInfo := option }
        k.waitFor (.event i) timeout

/-- `rt_event_control` with `RT_IPC_CMD_RESET`. -/
def eventReset (i : ι) : Kernel τ ι :=
  let k := k.ipcListResumeAll (.event i)
  { k with event := Function.update k.event i 0 }.log (.clear i)

/-! ## Threads -/

/-- `rt_thread_startup`; a failed assertion stops the program. -/
def threadStartup (t : τ) : Option (Kernel τ ι) :=
  if k.stat t = .init then
    some ({ k with sched := k.sched.setTcb t fun c => { c with stat := .suspend } }.threadResume t)
  else none

/-- The running thread sleeps, with its timer started. -/
def fallAsleep : Kernel τ ι :=
  let t := k.self
  (k.threadSuspend t).setThread t fun c => { c with timer := true, pc := .sleep, due := true }

/-- `rt_thread_sleep` by the running thread; a failed assertion stops the program. -/
def threadSleep (tick : UInt32) : Option (Kernel τ ι) :=
  if timerStarts tick then some k.fallAsleep else none

/-- The rest of a call that has waited: it returns the error number of the thread. -/
def threadReturn : Option (Kernel τ ι) :=
  let t := k.self
  match (k.thread t).pc with
  | .own => none
  | .wait o =>
    some ((k.setThread t fun c => { c with pc := .own }).log (.ret t o (k.thread t).error))
  | .sleep => some (k.setThread t fun c =>
      { c with pc := .own, error := if c.error = .etimeout then .eok else c.error })

/-- `rt_schedule`. -/
def schedule : Option (Kernel τ ι) := k.sched.schedule.map fun s => { k with sched := s }

/-- `rt_exit_critical` up to its `rt_schedule`. -/
def exitCritical : Kernel τ ι :=
  let k := { k with sched := { k.sched with lockNest := k.sched.lockNest - 1 } }
  if k.sched.lockNest = 0 then k.needSchedule else k

end Kernel

/-- The calls of a thread. -/
inductive KernelCall (τ ι : Type) where
  | semTake (i : ι) (time : Int32)
  | semRelease (i : ι)
  | semReset (i : ι) (value : Nat)
  | mutexTake (i : ι) (time : Int32)
  | mutexRelease (i : ι)
  | eventSend (i : ι) (set : BitVec 32)
  | eventRecv (i : ι) (set : BitVec 32) (option : EventInfo) (timeout : Int32)
  | eventReset (i : ι)
  | startup (t : τ)
  | sleep (tick : UInt32)
  | yield
  | enterCritical
  | exitCritical
  deriving DecidableEq

/-- The steps: a call of the running thread, the end of a call that has waited, the `rt_schedule`
that a thread or an interrupt handler is at; the interrupt handlers: calls that they make, the
timer of a thread, the tick. -/
inductive KernelAct (τ ι : Type) where
  | call (c : KernelCall τ ι)
  | ret
  | schedule
  | isrSchedule
  | isrSemRelease (i : ι)
  | isrEventSend (i : ι) (set : BitVec 32)
  | timeout (t : τ)
  | tick
  deriving DecidableEq

namespace Kernel

variable {τ ι : Type} [DecidableEq τ] [DecidableEq ι] (k : Kernel τ ι)

/-- A call that ends with `rt_schedule` if `need_schedule` is set. -/
def scheduled (r : Kernel τ ι × Bool) : Kernel τ ι := if r.2 then r.1.needSchedule else r.1

/-- The same in an interrupt handler. -/
def isrScheduled (r : Kernel τ ι × Bool) : Kernel τ ι :=
  if r.2 then { r.1 with isrDue := true } else r.1

/-- The first region of a call. -/
def call : KernelCall τ ι → Option (Kernel τ ι)
  | .semTake i time => k.semTake i time
  | .semRelease i => some (scheduled (k.semRelease i))
  | .semReset i value => some (k.semReset i value).needSchedule
  | .mutexTake i time => k.mutexTake i time
  | .mutexRelease i => some (scheduled (k.mutexRelease i))
  | .eventSend i set => some (scheduled (k.eventSend i set))
  | .eventRecv i set option timeout => k.eventRecv i set option timeout
  | .eventReset i => some (k.eventReset i).needSchedule
  | .startup t => (k.threadStartup t).map needSchedule
  | .sleep tick => k.threadSleep tick
  | .yield => { k with sched := k.sched.reload }.schedule
  | .enterCritical => some { k with sched := { k.sched with lockNest := k.sched.lockNest + 1 } }
  | .exitCritical => some k.exitCritical

/-- `rt_tick_increase`, the time slice. -/
def tickIncrease : Kernel τ ι :=
  let r := k.sched.tickIncrease
  isrScheduled ({ k with sched := r.1 }, r.2)

/-- The running thread is in code of its own. -/
def InThread : Prop := k.isrDue = false ∧ (k.thread k.self).due = false

instance : Decidable k.InThread := inferInstanceAs (Decidable (_ ∧ _))

def step : Run.Step (Kernel τ ι) (KernelAct τ ι)
  | k, .call c => if k.InThread ∧ (k.thread k.self).pc = .own then k.call c else none
  | k, .ret => if k.InThread then k.threadReturn else none
  | k, .schedule =>
    if k.isrDue = false ∧ (k.thread k.self).due = true then
      (k.setThread k.self fun c => { c with due := false }).schedule
    else none
  | k, .isrSchedule => if k.isrDue then { k with isrDue := false }.schedule else none
  | k, .isrSemRelease i => some (isrScheduled (k.semRelease i))
  | k, .isrEventSend i set => some (isrScheduled (k.eventSend i set))
  | k, .timeout t => if (k.thread t).timer then k.threadTimeout t else none
  | k, .tick => some k.tickIncrease

/-- The kernel when the scheduler has been started. -/
def boot (priority initTick : τ → Nat) (main idle : τ) (flag : IpcObj ι → IpcFlag)
    (sem : ι → Nat) : Kernel τ ι :=
  { sched := .boot priority initTick main idle
    flag
    sem }

end Kernel

end Rtos
