import SpsiMaster.Lib.Run
import SpsiMaster.Rtos.Ipc

/-!
# What semaphores, mutexes and events are for

The IPC objects without lists, priorities and scheduling: a semaphore is a number of tokens, a
mutex is the thread that has it and how often, an event is a set of bits, and a thread is active,
waits for an object, or has got the answer that its call is going to return. `Objects.step` says
when each of the things a call does is right: a token is taken from a semaphore that has one, a
mutex that is free or one's own, bits that have been sent and not been cleared; a thread waits only
for what is not there, an answer is given to a thread that waits, and returned once.
-/

namespace Rtos

/-- The IPC objects, for objects of each class named by `ι`. -/
inductive IpcObj (ι : Type) where
  | sem (i : ι)
  | mutex (i : ι)
  | event (i : ι)
  deriving DecidableEq

/-- `RT_EOK`, `-RT_ERROR`, `-RT_ETIMEOUT`. -/
inductive RtErr where
  | eok
  | error
  | etimeout
  deriving DecidableEq

/-- What the calls do: a thread begins to wait for an object, it is woken with an error number,
the call that waited returns; a token is taken, given, or the value set; a mutex is taken and
released once; bits are sent, received (and cleared from the event), all cleared. -/
inductive KernelEvent (τ ι : Type) where
  | wait (t : τ) (o : IpcObj ι)
  | wake (t : τ) (o : IpcObj ι) (e : RtErr)
  | ret (t : τ) (o : IpcObj ι) (e : RtErr)
  | take (t : τ) (i : ι)
  | give (i : ι)
  | setValue (i : ι) (value : Nat)
  | lock (t : τ) (i : ι)
  | unlock (t : τ) (i : ι)
  | send (i : ι) (set : BitVec 32)
  | receive (t : τ) (i : ι) (set : BitVec 32) (clear : Bool)
  | clear (i : ι)
  deriving DecidableEq

/-- What a thread is at. -/
inductive Status (ι : Type) where
  | active
  | waiting (o : IpcObj ι)
  | answered (o : IpcObj ι) (e : RtErr)
  deriving DecidableEq

/-- The threads and the objects. -/
@[ext] structure Objects (τ ι : Type) where
  status : τ → Status ι := fun _ => .active
  tokens : ι → Nat
  owner : ι → Option (τ × Nat) := fun _ => none
  bits : ι → BitVec 32 := fun _ => 0

namespace Objects

variable {τ ι : Type} [DecidableEq τ] [DecidableEq ι] (s : Objects τ ι)

/-- A semaphore or a mutex that can be taken. -/
def Free : IpcObj ι → Prop
  | .sem i => 0 < s.tokens i
  | .mutex i => s.owner i = none
  | .event _ => False

instance (o : IpcObj ι) : Decidable (s.Free o) :=
  match o with
  | .sem _ => inferInstanceAs (Decidable (_ < _))
  | .mutex _ => inferInstanceAs (Decidable (_ = _))
  | .event _ => inferInstanceAs (Decidable False)

/-- `t` may get `o`: it is active, or it is `o` that it waits for. -/
def Asks (t : τ) (o : IpcObj ι) : Prop := s.status t = .active ∨ s.status t = .waiting o

instance (t : τ) (o : IpcObj ι) : Decidable (s.Asks t o) := inferInstanceAs (Decidable (_ ∨ _))

def setStatus (t : τ) (c : Status ι) : Objects τ ι :=
  { s with status := Function.update s.status t c }

/-- `t` has got `o`; if it waited, this is its answer. -/
def grant (t : τ) (o : IpcObj ι) : Objects τ ι :=
  if s.status t = .active then s else s.setStatus t (.answered o .eok)

def step : Run.Step (Objects τ ι) (KernelEvent τ ι)
  | s, .wait t o =>
    if s.status t = .active ∧ ¬ s.Free o then some (s.setStatus t (.waiting o)) else none
  | s, .wake t o e =>
    if s.status t = .waiting o ∧ e ≠ .eok then some (s.setStatus t (.answered o e)) else none
  | s, .ret t o e => if s.status t = .answered o e then some (s.setStatus t .active) else none
  | s, .take t i =>
    if 0 < s.tokens i ∧ s.Asks t (.sem i) then
      some { s.grant t (.sem i) with tokens := Function.update s.tokens i (s.tokens i - 1) }
    else none
  | s, .give i =>
    if s.tokens i < semValueMax then
      some { s with tokens := Function.update s.tokens i (s.tokens i + 1) }
    else none
  | s, .setValue i value => some { s with tokens := Function.update s.tokens i value }
  | s, .lock t i =>
    match s.owner i with
    | none =>
      if s.Asks t (.mutex i) then
        some { s.grant t (.mutex i) with owner := Function.update s.owner i (some (t, 1)) }
      else none
    | some (u, n) =>
      if u = t ∧ s.status t = .active ∧ n < mutexHoldMax then
        some { s with owner := Function.update s.owner i (some (t, n + 1)) }
      else none
  | s, .unlock t i =>
    match s.owner i with
    | some (u, n + 1) =>
      if u = t ∧ s.status t = .active then
        some { s with
          owner := Function.update s.owner i (if n = 0 then none else some (t, n)) }
      else none
    | _ => none
  | s, .send i set => some { s with bits := Function.update s.bits i (s.bits i ||| set) }
  | s, .receive t i set clear =>
    if set ≠ 0 ∧ set &&& s.bits i = set ∧ s.Asks t (.event i) then
      some { s.grant t (.event i) with
        bits := Function.update s.bits i (if clear then s.bits i &&& ~~~set else s.bits i) }
    else none
  | s, .clear i => some { s with bits := Function.update s.bits i 0 }

end Objects

end Rtos
