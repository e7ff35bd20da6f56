import AntHal.Concurrency.Program
import AntHal.Bluez.State

/-!
Enable, disable and status of the BlueZ back end: ant_native_hci.c as programs
over the shared state.

What the source compiles only with USE_EXTERNAL_POWER_LIBRARY asks the build.
-/

namespace AntHal.Bluez

open Concurrency

abbrev Cmd (α : Type) : Type := Prog Op Op.Res α

section primitives

abbrev funcStart (f : Func) : Cmd Unit := .op (.funcStart f) .ret
abbrev funcEnd (f : Func) (ret : Return) : Cmd Unit := .op (.funcEnd f ret) .ret
abbrev mutexLock (l : Lock) : Cmd Int := .op (.mutexLock l) .ret
abbrev mutexTrylock : Cmd Int := .op .mutexTrylock .ret
abbrev mutexUnlock (l : Lock) : Cmd Unit := .op (.mutexUnlock l) .ret
abbrev unlockReturn (f : Func) (ret : AntStatus) : Cmd Unit := .op (.unlockReturn f ret) .ret
abbrev getRadioStatus : Cmd RadioStatus := .op .getRadioStatus .ret
abbrev returnRadioStatus : Cmd RadioStatus := .op .returnRadioStatus .ret
abbrev setRadioStatus (s : RadioStatus) : Cmd Unit := .op (.setRadioStatus s) .ret
abbrev getThread : Cmd Nat := .op .getThread .ret
abbrev clearThread : Cmd Unit := .op .clearThread .ret
abbrev getStateCallback : Cmd Bool := .op .getStateCallback .ret
abbrev stateCallback (s : RadioStatus) : Cmd Unit := .op (.stateCallback s) .ret
abbrev getRxCallback : Cmd Bool := .op .getRxCallback .ret
abbrev rxCallback (payload : List UInt8) : Cmd Unit := .op (.rxCallback payload) .ret
abbrev antEnable : Cmd Int := .op .antEnable .ret
abbrev antDisable : Cmd Int := .op .antDisable .ret
abbrev antIsEnabled : Cmd Int := .op .antIsEnabled .ret
abbrev pthreadCreate : Cmd Int := .op .pthreadCreate .ret
abbrev pthreadJoin (h : Nat) : Cmd Unit := .op (.pthreadJoin h) .ret
abbrev createHciSock : Cmd Int := .op .createHciSock .ret
abbrev setCmdSocket (socket : Int) : Cmd Unit := .op (.setCmdSocket socket) .ret
abbrev getCmdSocket : Cmd Int := .op .getCmdSocket .ret
abbrev setsockopt (socket : Int) : Cmd Int := .op (.setsockopt socket) .ret
abbrev poll (socket : Int) : Cmd (Outcome Nat) := .op (.poll socket) .ret
abbrev read (socket : Int) : Cmd (Outcome (Nat × Memory)) := .op (.read socket) .ret
abbrev writev (socket : Int) (bytes : List UInt8) : Cmd (Outcome Nat) :=
  .op (.writev socket bytes) .ret
abbrev close (socket : Int) : Cmd Unit := .op (.close socket) .ret
abbrev time : Cmd (Option Nat) := .op .time .ret
abbrev nanosleep : Cmd Unit := .op .nanosleep .ret

end primitives

section status

/-- `if (RxParams.pfStateCallback) RxParams.pfStateCallback(radio_status)`. -/
def reportRadioStatus : Cmd Unit := do
  let set ← getStateCallback
  if set then
    let status ← getRadioStatus
    stateCallback status

/-- The status that an answer of `ant_is_enabled` stands for. -/
def chipStatus (enabled : Int) : RadioStatus :=
  if enabled = 0 then .disabled else if enabled = 1 then .enabled else .unknown

/-- Store what the power library answers; only a change is reported. -/
def refreshRadioStatus : Cmd Unit := do
  let origStatus ← getRadioStatus
  let enabled ← antIsEnabled
  setRadioStatus (chipStatus enabled)
  let status ← getRadioStatus
  if origStatus ≠ status then reportRadioStatus

end status

section lifecycle
variable (b : Build)

/-- A part of the source that needs the power library. -/
def withPowerLibrary (p : Cmd Unit) : Cmd Unit :=
  if b.useExternalPowerLibrary then p else return ()

def getAndSetRadioStatus : Cmd RadioStatus := do
  funcStart .getAndSetRadioStatus
  withPowerLibrary b refreshRadioStatus
  returnRadioStatus

/-- Join the receive thread, if one is recorded, and forget it. -/
def joinThread : Cmd Unit := do
  let thread ← getThread
  if thread ≠ 0 then
    let thread ← getThread
    pthreadJoin thread
    clearThread

/-- `ant_enable_radio` for a radio that is not enabled: a thread that is still
recorded belongs to a radio that crashed. -/
def beginEnabling (status : RadioStatus) : Cmd Unit :=
  if status ≠ .enabled then do
    joinThread
    setRadioStatus .enabling
    withPowerLibrary b reportRadioStatus
  else return ()

/-- The call of `ant_enable`, 0 without a power library. -/
def powerOn : Cmd Int :=
  if b.useExternalPowerLibrary then antEnable else return 0

/-- The status after a thread has been created. With a power library ENABLED is
stored only if nobody has changed the status since. -/
def enabledWithThread : Cmd Unit :=
  if b.useExternalPowerLibrary then do
    let status ← getRadioStatus
    if status = .enabling then
      setRadioStatus .enabled
      reportRadioStatus
  else setRadioStatus .enabled

/-- If the chip is on, keep the recorded thread or create one. -/
def connectThread (result : Int) : Cmd AntStatus :=
  if result = 0 then do
    let thread ← getThread
    if thread ≠ 0 then
      setRadioStatus .enabled
      return .success
    else
      let result ← pthreadCreate
      if result ≠ 0 then return .failed
      else
        enabledWithThread b
        return .success
  else return .transportInitErr

/-- The clean-up when `ant_enable` or creating the thread has failed. -/
def enableCleanUp (resultStatus : AntStatus) : Cmd Unit :=
  if resultStatus ≠ .success then do
    withPowerLibrary b (do let _ ← antDisable; return ())
    let _ ← getAndSetRadioStatus b
    return ()
  else return ()

/-- `ant_enable_radio` with both locks. -/
def enableRadioLocked : Cmd AntStatus := do
  let status ← getAndSetRadioStatus b
  beginEnabling b status
  let result ← powerOn b
  let resultStatus ← connectThread b result
  enableCleanUp b resultStatus
  return resultStatus

/-- `if (RADIO_STATUS_DISABLED == radio_status) radio_status = RADIO_STATUS_ENABLING`,
without a report. -/
def markEnabling : Cmd Unit := do
  let status ← getRadioStatus
  if status = .disabled then setRadioStatus .enabling

/-- The part of a call under txLock, entered and left with enableLock. -/
def underTxLock (f : Func) (locked : Cmd AntStatus) : Cmd AntStatus := do
  let lockResult ← mutexLock .txLock
  if lockResult ≠ 0 then
    unlockReturn f .failed
    return .failed
  else
    let ret ← locked
    mutexUnlock .txLock
    unlockReturn f ret
    return ret

def antEnableRadio : Cmd AntStatus := do
  funcStart .antEnableRadio
  let lockResult ← mutexLock .enableLock
  if lockResult ≠ 0 then
    funcEnd .antEnableRadio (.status .failed)
    return .failed
  else
    markEnabling
    underTxLock .antEnableRadio (enableRadioLocked b)

def announceDisabling (status : RadioStatus) : Cmd Unit :=
  if status ≠ .disabled then do
    setRadioStatus .disabling
    reportRadioStatus
  else return ()

/-- `ant_disable_radio` up to the wait for the receive thread. -/
def beginDisabling : Cmd Unit :=
  if b.useExternalPowerLibrary then do
    let status ← getAndSetRadioStatus b
    announceDisabling status
    let _ ← antDisable
    return ()
  else setRadioStatus .disabled

/-- `ant_disable_radio` with both locks. -/
def disableRadioLocked : Cmd AntStatus := do
  beginDisabling b
  joinThread
  let status ← getAndSetRadioStatus b
  return match status with
    | .disabled => .success
    | .enabled => .failed
    | _ => .notDeInitialized

def antDisableRadio : Cmd AntStatus := do
  funcStart .antDisableRadio
  let lockResult ← mutexLock .enableLock
  if lockResult ≠ 0 then
    funcEnd .antDisableRadio (.status .failed)
    return .failed
  else underTxLock .antDisableRadio (disableRadioLocked b)

/-- Only a status that is not in transition is refreshed. -/
def refreshUnlessInTransition : Cmd Unit := do
  let status ← getRadioStatus
  if status ≠ .enabling then
    let status ← getRadioStatus
    if status ≠ .disabling then
      let _ ← getAndSetRadioStatus b
      return ()

def antRadioEnabledStatus : Cmd RadioStatus := do
  funcStart .antRadioEnabledStatus
  refreshUnlessInTransition b
  let status ← getRadioStatus
  funcEnd .antRadioEnabledStatus (.radio status)
  return status

end lifecycle
end AntHal.Bluez
