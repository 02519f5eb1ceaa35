import SpsiMaster.Lib.Run
import SpsiMaster.Rtos.Ipc
import SpsiMaster.Log.File

/-!
# Contention for the log

`File_Output`, `spsiread1` and `spsiread2` of `applications/file.c` as they run in several threads:
what is between two accesses to the mutex, to `Global_Nums` or to the storage is one step. Every
call tries to take `spsi_read_mutex` without waiting, and releases it at its end whether it has got
it or not.

`LogSystem.commits` is a ghost: the arguments of the calls of `File_Output` that have got the mutex
and released it, the newest first.
-/

namespace Spsi

open Rtos

/-- Where a thread stands: in front of the statement of its call that the name says. -/
inductive LogPc where
  | idle
  /-- `File_Output`. -/
  | taking (a : FileArgs)
  | counting (a : FileArgs)
  | choosing (a : FileArgs) (buf : List UInt8)
  | unlinking (a : FileArgs) (f : LogFile) (buf : List UInt8)
  | heading (a : FileArgs) (f : LogFile) (buf : List UInt8)
  | appending (a : FileArgs) (f : LogFile) (buf : List UInt8)
  | saving (a : FileArgs)
  | releasing (a : FileArgs)
  /-- `spsiread1`, `spsiread2`, after their wait. -/
  | readTaking (f : LogFile)
  | uploading (f : LogFile)
  | readReleasing
  /-- `rt_mutex_release` of a call whose `rt_mutex_trytake` has failed. -/
  | refused
  deriving DecidableEq

/-- The shared state, and where the threads stand. -/
structure LogSystem (τ : Type) where
  log : Logger
  mutex : Mutex τ
  pc : τ → LogPc
  commits : List FileArgs

/-- A thread calls `File_Output`, or `spsiread1` (`spsiread2`), or goes on. -/
inductive LogSystemAct (τ : Type) where
  | output (t : τ) (a : FileArgs)
  | upload (t : τ) (f : LogFile)
  | run (t : τ)
  deriving DecidableEq

namespace LogSystem

variable {τ : Type} [DecidableEq τ]

def setPc (s : LogSystem τ) (t : τ) (pc : LogPc) : LogSystem τ :=
  { s with pc := Function.update s.pc t pc }

def onStore (s : LogSystem τ) (op : StoreOp) : LogSystem τ :=
  { s with log.store := s.log.store.apply op }

/-- `rt_mutex_trytake`, and what the thread does after its success. -/
def trytake (s : LogSystem τ) (t : τ) (next : LogPc) : LogSystem τ :=
  let (ok, mutex) := s.mutex.trytake t
  { s with mutex }.setPc t (if ok then next else .refused)

/-- `rt_mutex_release`, the last statement of every call. -/
def release (s : LogSystem τ) (t : τ) : LogSystem τ :=
  { s with mutex := s.mutex.release t }.setPc t .idle

/-- The next step of a thread. -/
def run (s : LogSystem τ) (t : τ) : Option (LogSystem τ) :=
  match s.pc t with
  | .idle => none
  | .taking a => some (s.trytake t (.counting a))
  | .counting a =>
    let n := s.log.globalNums + 1
    some ({ s with log.globalNums := n }.setPc t (.choosing a (recordText n a)))
  | .choosing a buf =>
    let n := s.log.globalNums
    some (s.setPc t (
      if n % 400000 < 200000 then
        if n % 400000 = 0 then .unlinking a .top buf else .appending a .top buf
      else if n % 400000 = 200000 then .unlinking a .down buf else .appending a .down buf))
  | .unlinking a f buf => some ((s.onStore (.unlink f)).setPc t (.heading a f buf))
  | .heading a f buf => some ((s.onStore (writeCsv f csvHeader)).setPc t (.appending a f buf))
  | .appending a f buf => some ((s.onStore (writeCsv f buf)).setPc t (.saving a))
  | .saving a => some ((s.onStore (flashChange .id s.log.globalNums)).setPc t (.releasing a))
  | .releasing a => some ({ s with commits := a :: s.commits }.release t)
  | .readTaking f => some (s.trytake t (.uploading f))
  | .uploading _ => some (s.setPc t .readReleasing)
  | .readReleasing => some (s.release t)
  | .refused => some (s.release t)

/-- The atomic steps. -/
def step : Run.Step (LogSystem τ) (LogSystemAct τ)
  | s, .output t a => if s.pc t = .idle then some (s.setPc t (.taking a)) else none
  | s, .upload t f => if s.pc t = .idle then some (s.setPc t (.readTaking f)) else none
  | s, .run t => s.run t

/-- No call is in progress. -/
def start (log : Logger) : LogSystem τ := ⟨log, {}, fun _ => .idle, []⟩

end LogSystem

end Spsi
