import AntHal.Concurrency.Machine
import AntHal.Common.Types
import AntHal.Chardev.Receive

/-!
The shared state of the character-device back ends and the operations on it.

The state is `stRxThreadInfo` with the state lock, the vendor interface of
bt-vendor_vfs and the statics of the receive path. A program reads and writes
one field, or makes one system call, at a time. What a system call answers is
decided by the environment of the step. The mutex calls do not fail: the lock
is a valid default mutex and no thread locks it twice.
-/

namespace AntHal

/-- The functions whose start and end are logged. -/
inductive Func where
  | antEnableRadio
  | antDisableRadio
  | antRadioHardReset
  | antEnable
  | antDisable
  | fnRxThread
  | doReset
  deriving DecidableEq

inductive Return where
  | void
  | int (n : Int)
  | status (s : AntStatus)
  deriving DecidableEq

/-- What the state records of the past. -/
inductive Event where
  | funcStart (f : Func)
  | funcEnd (f : Func) (ret : Return)
  | stateCallback (s : RadioStatus)
  | opened (ch : AntChannelType) (fd : Nat)
  | closed (ch : AntChannelType) (fd : Int)
  | created (h : Nat)
  | signalled
  | joined (h : Nat)
  | keepAliveCreated (h : Nat)
  | detached (h : Nat)
  | vendorInit
  | vendorPower (on : Bool) (ret : Int)
  | vendorCleanup
  | received (ch : AntChannelType) (bytes : List UInt8) (actions : List RxAction)
  deriving DecidableEq

/-- What an event says about a shutdown signal on its way. -/
def Event.signal? : Event → Option Bool
  | .signalled => some true
  | .joined _ => some false
  | _ => none

inductive EventfdResult where
  | ok
  | eagain
  | error
  deriving DecidableEq

/-- The answer of `poll`: its value, and revents of the channels and the eventfd. -/
structure PollResult where
  iPollRet : Int
  revents : AntChannelType → UInt16
  shutdown : UInt16

structure Env where
  eventfdRead : EventfdResult := .ok
  eventfdWrite : Bool := true
  /-- The descriptor that open gives for a path, if it succeeds. -/
  openDevice : AntChannelType → Option Nat := fun _ => some 3
  closeDevice : Bool := true
  /-- The error number of pthread_create, 0 for success. -/
  pthreadCreate : Nat := 0
  /-- The handle of a created thread is one more than this. -/
  handle : Nat := 0
  /-- The same for the keepalive thread; after an error its local handle is stale. -/
  keepAliveCreate : Nat := 0
  staleHandle : Nat := 0
  dlopen : Bool := true
  dlsym : Bool := true
  powerCtrlOn : Int := 0
  /-- The answer of BT_VND_OP_ANT_USERIAL_OPEN and what it stores as descriptor. -/
  userialOpen : Int := 1
  userialFd : Int := 3
  userialClose : Int := 0
  powerCtrlOff : Int := 0
  poll : PollResult := ⟨0, fun _ => 0, 0⟩
  read : ReadResult := .data []
  beyond : Memory := fun _ => 0

structure Shared where
  stRxThread : Nat
  ucRunThread : Bool
  ucChipResetting : Bool
  bWaitingForKeepaliveResponse : Bool
  astChannels : AntChannelType → AntChannelInfo
  /-- The thread that holds stEnabledStatusLock. -/
  stEnabledStatusLock : Option Tid
  gFnStateCallback : Bool
  vendorInterface : Bool
  rx : AntChannelType → RxState
  events : List Event

namespace Shared

/-- The state that `ant_init` leaves, with the callbacks that are set after it. -/
def init (stateCallback rxCallback : Bool) : Shared where
  stRxThread := 0
  ucRunThread := false
  ucChipResetting := false
  bWaitingForKeepaliveResponse := false
  astChannels := fun _ => ⟨-1, rxCallback, 0, 0⟩
  stEnabledStatusLock := none
  gFnStateCallback := stateCallback
  vendorInterface := false
  rx := fun _ => .init
  events := []

variable (s : Shared)

def log (e : Event) : Shared := { s with events := s.events ++ [e] }

def iFd (ch : AntChannelType) : Int := (s.astChannels ch).iFd

def setFd (ch : AntChannelType) (fd : Int) : Shared :=
  { s with astChannels := Function.update s.astChannels ch { s.astChannels ch with iFd := fd } }

/-- A shutdown signal has been written, and the join behind it has not returned. -/
def signalled : Bool := s.events.foldl (fun v e => e.signal?.getD v) false

@[simp] theorem log_signalled (e : Event) :
    (s.log e).signalled = e.signal?.getD s.signalled := by
  simp [signalled, log]

@[simp] theorem log_stRxThread (e : Event) : (s.log e).stRxThread = s.stRxThread := rfl

@[simp] theorem log_ucRunThread (e : Event) : (s.log e).ucRunThread = s.ucRunThread := rfl

@[simp] theorem log_ucChipResetting (e : Event) :
    (s.log e).ucChipResetting = s.ucChipResetting := rfl

@[simp] theorem log_stEnabledStatusLock (e : Event) :
    (s.log e).stEnabledStatusLock = s.stEnabledStatusLock := rfl

@[simp] theorem log_iFd (e : Event) : (s.log e).iFd = s.iFd := rfl

@[simp] theorem setFd_stRxThread (ch : AntChannelType) (fd : Int) :
    (s.setFd ch fd).stRxThread = s.stRxThread := rfl

@[simp] theorem setFd_ucRunThread (ch : AntChannelType) (fd : Int) :
    (s.setFd ch fd).ucRunThread = s.ucRunThread := rfl

@[simp] theorem setFd_ucChipResetting (ch : AntChannelType) (fd : Int) :
    (s.setFd ch fd).ucChipResetting = s.ucChipResetting := rfl

@[simp] theorem setFd_iFd (ch : AntChannelType) (fd : Int) :
    (s.setFd ch fd).iFd = Function.update s.iFd ch fd := by
  funext ch'
  by_cases h : ch' = ch
  · subst h
    simp [iFd, setFd]
  · simp [iFd, setFd, Function.update_of_ne h]

end Shared

/-- One read or write of the state, or one system call. -/
inductive Op where
  | funcStart (f : Func)
  | funcEnd (f : Func) (ret : Return)
  | mutexLock
  | mutexTrylock
  | mutexUnlock
  | getChipResetting
  | setChipResetting (v : Bool)
  | getRunThread
  | setRunThread (v : Bool)
  | getRxThread
  | clearRxThread
  | getFd (ch : AntChannelType)
  | setFd (ch : AntChannelType) (fd : Int)
  | getWaiting
  | setWaiting (v : Bool)
  | getStateCallback
  | stateCallback (s : RadioStatus)
  | eventfdRead
  | eventfdWrite
  | openDevice (ch : AntChannelType)
  | closeDevice (ch : AntChannelType)
  | dlopen
  | dlsym
  | getVendorInterface
  | clearVendorInterface
  | vendorInit
  | powerCtrl (on : Bool)
  | userialOpen
  | userialClose
  | vendorCleanup
  | pthreadCreate
  | pthreadJoin (h : Nat)
  | keepAliveCreate
  | pthreadDetach (h : Nat)
  | ioctlReset
  | poll
  | readChannelMsg (ch : AntChannelType)
  deriving DecidableEq

@[reducible] def Op.Res : Op → Type
  | .mutexLock | .mutexTrylock | .getFd _ | .eventfdWrite | .openDevice _ | .closeDevice _
  | .powerCtrl _ | .userialClose | .pthreadCreate | .pthreadJoin _ | .readChannelMsg _ => Int
  | .getChipResetting | .getRunThread | .getWaiting | .getStateCallback | .dlopen | .dlsym
  | .getVendorInterface => Bool
  | .getRxThread | .keepAliveCreate => Nat
  | .eventfdRead => EventfdResult
  | .userialOpen => Int × Int
  | .poll => PollResult
  | _ => Unit

/-- The meaning of an operation of thread `t`. -/
def effect (b : Build) (t : Tid) (env : Env) : (o : Op) → Shared → o.Res × Shared
  | .funcStart f, s => ((), s.log (.funcStart f))
  | .funcEnd f ret, s => ((), s.log (.funcEnd f ret))
  | .mutexLock, s => (0, { s with stEnabledStatusLock := some t })
  | .mutexTrylock, s =>
    if s.stEnabledStatusLock.isNone then (0, { s with stEnabledStatusLock := some t })
    else (ebusy, s)
  | .mutexUnlock, s => ((), { s with stEnabledStatusLock := none })
  | .getChipResetting, s => (s.ucChipResetting, s)
  | .setChipResetting v, s => ((), { s with ucChipResetting := v })
  | .getRunThread, s => (s.ucRunThread, s)
  | .setRunThread v, s => ((), { s with ucRunThread := v })
  | .getRxThread, s => (s.stRxThread, s)
  | .clearRxThread, s => ((), { s with stRxThread := 0 })
  | .getFd ch, s => (s.iFd ch, s)
  | .setFd ch fd, s => ((), s.setFd ch fd)
  | .getWaiting, s => (s.bWaitingForKeepaliveResponse, s)
  | .setWaiting v, s => ((), { s with bWaitingForKeepaliveResponse := v })
  | .getStateCallback, s => (s.gFnStateCallback, s)
  | .stateCallback status, s => ((), s.log (.stateCallback status))
  | .eventfdRead, s => (env.eventfdRead, s)
  | .eventfdWrite, s => if env.eventfdWrite then (8, s.log .signalled) else (-1, s)
  | .openDevice ch, s =>
    match env.openDevice ch with
    | some fd => (fd, s.log (.opened ch fd))
    | none => (-1, s)
  | .closeDevice ch, s => (if env.closeDevice then 0 else -1, s.log (.closed ch (s.iFd ch)))
  | .dlopen, s => (env.dlopen, s)
  | .dlsym, s => (env.dlsym, { s with vendorInterface := env.dlsym })
  | .getVendorInterface, s => (s.vendorInterface, s)
  | .clearVendorInterface, s => ((), { s with vendorInterface := false })
  | .vendorInit, s => ((), s.log .vendorInit)
  | .powerCtrl on, s =>
    let ret := if on then env.powerCtrlOn else env.powerCtrlOff
    (ret, s.log (.vendorPower on ret))
  | .userialOpen, s => ((env.userialOpen, env.userialFd), s)
  | .userialClose, s => (env.userialClose, s)
  | .vendorCleanup, s => ((), s.log .vendorCleanup)
  | .pthreadCreate, s =>
    if env.pthreadCreate = 0 then
      (0, { s with stRxThread := env.handle + 1 }.log (.created (env.handle + 1)))
    else (env.pthreadCreate, s)
  | .pthreadJoin h, s => (0, s.log (.joined h))
  | .keepAliveCreate, s =>
    if env.keepAliveCreate = 0 then
      (env.handle + 1, s.log (.keepAliveCreated (env.handle + 1)))
    else (env.staleHandle, s)
  | .pthreadDetach h, s => ((), s.log (.detached h))
  | .ioctlReset, s => ((), s)
  | .poll, s => (env.poll, s)
  | .readChannelMsg ch, s =>
    let r := readChannelMsg b.hci ⟨env.read, env.beyond, fun _ => 0⟩ (s.rx ch)
      (s.astChannels ch)
    (r.iRet, { s with
      rx := Function.update s.rx ch r.rx
      astChannels := Function.update s.astChannels ch r.info }.log
        (.received ch r.received r.actions))

end AntHal
