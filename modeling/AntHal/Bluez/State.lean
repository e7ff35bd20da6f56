import AntHal.Concurrency.Machine
import AntHal.Bluez.Framing

/-!
The shared state of the BlueZ back end and the operations on it.

The state is `radio_status`, `RxParams`, the two locks and the command socket.
The power library, which is not part of the repository, answers what the
environment of the step decides, and so do the locks, the threads library and
the sockets. A read of `radio_status` is an operation of its own wherever the
source names the variable, since most readers hold no lock.
-/

namespace AntHal.Bluez

inductive Lock where
  | enableLock
  | txLock
  deriving DecidableEq

/-- The functions whose start and end are logged. -/
inductive Func where
  | antEnableRadio
  | antDisableRadio
  | antRadioEnabledStatus
  | getAndSetRadioStatus
  | antTxMessage
  | antHciRxThread
  deriving DecidableEq

inductive Return where
  | status (s : AntStatus)
  | radio (s : RadioStatus)
  deriving DecidableEq

/-- What the state records of the past. -/
inductive Event where
  | funcStart (f : Func)
  | funcEnd (f : Func) (ret : Return)
  | stateCallback (s : RadioStatus)
  | rxCallback (payload : List UInt8)
  | created (h : Nat)
  | joined (h : Nat)
  | antEnable (ret : Int)
  | antDisable (ret : Int)
  | written (bytes : List UInt8)
  deriving DecidableEq

/-- How a call on a socket ends: EAGAIN and EINTR are told apart from errors. -/
inductive Outcome (α : Type) where
  | ok (a : α)
  | again
  | error

/-- What the outside decides in one step. The defaults are calls that succeed,
with the chip enabled and nothing to receive. -/
structure Env where
  /-- The error number of a lock operation, 0 for success. -/
  mutex : Int := 0
  antEnable : Int := 0
  antDisable : Int := 0
  antIsEnabled : Int := 1
  pthreadCreate : Int := 0
  /-- The handle of a created thread is one more than this. -/
  handle : Nat := 0
  hciSock : Option Nat := some 3
  setsockopt : Int := 0
  poll : Outcome Nat := .ok 0
  /-- A packet of some length, and what the buffer holds with it. -/
  read : Outcome (Nat × Memory) := .ok (0, fun _ => 0)
  /-- How many of the bytes that are passed can be written. -/
  writev : Outcome Nat := .ok 300
  time : Option Nat := some 0

structure Shared where
  radioStatus : RadioStatus
  /-- RxParams.thread -/
  thread : Nat
  /-- RxParams.pfRxCallback and RxParams.pfStateCallback are set. -/
  pfRxCallback : Bool
  pfStateCallback : Bool
  /-- The thread that holds each lock. -/
  locks : Lock → Option Tid
  gAntCmdSocket : Int
  events : List Event

namespace Shared

/-- The state that `ant_init` leaves, with the callbacks that are set after it. -/
def init (stateCallback rxCallback : Bool) : Shared where
  radioStatus := .disabled
  thread := 0
  pfRxCallback := rxCallback
  pfStateCallback := stateCallback
  locks := fun _ => none
  gAntCmdSocket := -1
  events := []

variable (s : Shared)

def log (e : Event) : Shared := { s with events := s.events ++ [e] }

def setLock (l : Lock) (owner : Option Tid) : Shared :=
  { s with locks := Function.update s.locks l owner }

@[simp] theorem log_radioStatus (e : Event) : (s.log e).radioStatus = s.radioStatus := rfl

@[simp] theorem log_thread (e : Event) : (s.log e).thread = s.thread := rfl

@[simp] theorem log_pfStateCallback (e : Event) :
    (s.log e).pfStateCallback = s.pfStateCallback := rfl

@[simp] theorem log_locks (e : Event) : (s.log e).locks = s.locks := rfl

@[simp] theorem setLock_radioStatus (l : Lock) (t : Option Tid) :
    (s.setLock l t).radioStatus = s.radioStatus := rfl

@[simp] theorem setLock_thread (l : Lock) (t : Option Tid) :
    (s.setLock l t).thread = s.thread := rfl

@[simp] theorem setLock_pfStateCallback (l : Lock) (t : Option Tid) :
    (s.setLock l t).pfStateCallback = s.pfStateCallback := rfl

@[simp] theorem setLock_events (l : Lock) (t : Option Tid) :
    (s.setLock l t).events = s.events := rfl

@[simp] theorem setLock_self (l : Lock) (t : Option Tid) : (s.setLock l t).locks l = t :=
  Function.update_self _ _ _

theorem setLock_other {l l' : Lock} (h : l' ≠ l) (t : Option Tid) :
    (s.setLock l t).locks l' = s.locks l' :=
  Function.update_of_ne h _ _

end Shared

/-- One read or write of the state, or one call outside. -/
inductive Op where
  | funcStart (f : Func)
  | funcEnd (f : Func) (ret : Return)
  | mutexLock (l : Lock)
  | mutexTrylock
  | mutexUnlock (l : Lock)
  /-- The release of enableLock that ends a call, and the status it returns. -/
  | unlockReturn (f : Func) (ret : AntStatus)
  | getRadioStatus
  /-- The read of radio_status that get_and_set_radio_status returns. -/
  | returnRadioStatus
  | setRadioStatus (s : RadioStatus)
  | getThread
  | clearThread
  | getStateCallback
  | stateCallback (s : RadioStatus)
  | getRxCallback
  | rxCallback (payload : List UInt8)
  | antEnable
  | antDisable
  | antIsEnabled
  | pthreadCreate
  | pthreadJoin (h : Nat)
  | createHciSock
  | setCmdSocket (socket : Int)
  | getCmdSocket
  | setsockopt (socket : Int)
  | poll (socket : Int)
  | read (socket : Int)
  | writev (socket : Int) (bytes : List UInt8)
  | close (socket : Int)
  | time
  | nanosleep
  deriving DecidableEq

@[reducible] def Op.Res : Op → Type
  | .mutexLock _ | .mutexTrylock | .antEnable | .antDisable | .antIsEnabled | .pthreadCreate
  | .createHciSock | .getCmdSocket | .setsockopt _ => Int
  | .getRadioStatus | .returnRadioStatus => RadioStatus
  | .getThread => Nat
  | .getStateCallback | .getRxCallback => Bool
  | .poll _ | .writev _ _ => Outcome Nat
  | .read _ => Outcome (Nat × Memory)
  | .time => Option Nat
  | _ => Unit

/-- The meaning of an operation of thread `t`. -/
def effect (t : Tid) (env : Env) : (o : Op) → Shared → o.Res × Shared
  | .funcStart f, s => ((), s.log (.funcStart f))
  | .funcEnd f ret, s => ((), s.log (.funcEnd f ret))
  | .mutexLock l, s => if env.mutex = 0 then (0, s.setLock l (some t)) else (env.mutex, s)
  | .mutexTrylock, s =>
    if (s.locks .enableLock).isSome then (ebusy, s)
    else if env.mutex = 0 then (0, s.setLock .enableLock (some t))
    else (env.mutex, s)
  | .mutexUnlock l, s => ((), s.setLock l none)
  | .unlockReturn f ret, s => ((), (s.setLock .enableLock none).log (.funcEnd f (.status ret)))
  | .getRadioStatus, s => (s.radioStatus, s)
  | .returnRadioStatus, s => (s.radioStatus, s)
  | .setRadioStatus status, s => ((), { s with radioStatus := status })
  | .getThread, s => (s.thread, s)
  | .clearThread, s => ((), { s with thread := 0 })
  | .getStateCallback, s => (s.pfStateCallback, s)
  | .stateCallback status, s => ((), s.log (.stateCallback status))
  | .getRxCallback, s => (s.pfRxCallback, s)
  | .rxCallback payload, s => ((), s.log (.rxCallback payload))
  | .antEnable, s => (env.antEnable, s.log (.antEnable env.antEnable))
  | .antDisable, s => (env.antDisable, s.log (.antDisable env.antDisable))
  | .antIsEnabled, s => (env.antIsEnabled, s)
  | .pthreadCreate, s =>
    if env.pthreadCreate = 0 then
      (0, { s with thread := env.handle + 1 }.log (.created (env.handle + 1)))
    else (env.pthreadCreate, s)
  | .pthreadJoin h, s => ((), s.log (.joined h))
  | .createHciSock, s => (env.hciSock.elim (-1) Int.ofNat, s)
  | .setCmdSocket socket, s => ((), { s with gAntCmdSocket := socket })
  | .getCmdSocket, s => (s.gAntCmdSocket, s)
  | .setsockopt _, s => (env.setsockopt, s)
  | .poll _, s => (env.poll, s)
  | .read _, s =>
    match env.read with
    | .ok (len, buf) => (.ok (min len hciMaxEventSize, buf), s)
    | r => (r, s)
  | .writev _ bytes, s =>
    match env.writev with
    | .ok n => (.ok (min n bytes.length), s.log (.written (bytes.take n)))
    | r => (r, s)
  | .close _, s => ((), s)
  | .time, s => (env.time, s)
  | .nanosleep, s => ((), s)

end AntHal.Bluez
