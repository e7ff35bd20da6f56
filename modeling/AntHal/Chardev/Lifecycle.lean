import AntHal.Chardev.State

/-!
Enable, disable, reset and status of ant_native_chardev.c, and `doReset` of
ant_rx_chardev.c, as programs over the shared state.

The two back ends share the text of most functions. Where they differ the
program asks which back end it is built for: vfs opens devices itself and
ignores redundant calls, bt-vendor_vfs goes through the vendor library.
-/

namespace AntHal

open Concurrency

abbrev Cmd (α : Type) : Type := Prog Op Op.Res α

section primitives

abbrev funcStart (f : Func) : Cmd Unit := .op (.funcStart f) .ret
abbrev funcEnd (f : Func) (ret : Return) : Cmd Unit := .op (.funcEnd f ret) .ret
abbrev mutexLock : Cmd Int := .op .mutexLock .ret
abbrev mutexTrylock : Cmd Int := .op .mutexTrylock .ret
abbrev mutexUnlock : Cmd Unit := .op .mutexUnlock .ret
abbrev getChipResetting : Cmd Bool := .op .getChipResetting .ret
abbrev setChipResetting (v : Bool) : Cmd Unit := .op (.setChipResetting v) .ret
abbrev getRunThread : Cmd Bool := .op .getRunThread .ret
abbrev setRunThread (v : Bool) : Cmd Unit := .op (.setRunThread v) .ret
abbrev getRxThread : Cmd Nat := .op .getRxThread .ret
abbrev clearRxThread : Cmd Unit := .op .clearRxThread .ret
abbrev getFd (ch : AntChannelType) : Cmd Int := .op (.getFd ch) .ret
abbrev setFd (ch : AntChannelType) (fd : Int) : Cmd Unit := .op (.setFd ch fd) .ret
abbrev getWaiting : Cmd Bool := .op .getWaiting .ret
abbrev setWaiting (v : Bool) : Cmd Unit := .op (.setWaiting v) .ret
abbrev getStateCallback : Cmd Bool := .op .getStateCallback .ret
abbrev stateCallback (s : RadioStatus) : Cmd Unit := .op (.stateCallback s) .ret
abbrev eventfdRead : Cmd EventfdResult := .op .eventfdRead .ret
abbrev eventfdWrite : Cmd Int := .op .eventfdWrite .ret
abbrev openDevice (ch : AntChannelType) : Cmd Int := .op (.openDevice ch) .ret
abbrev closeDevice (ch : AntChannelType) : Cmd Int := .op (.closeDevice ch) .ret
abbrev dlopen : Cmd Bool := .op .dlopen .ret
abbrev dlsym : Cmd Bool := .op .dlsym .ret
abbrev getVendorInterface : Cmd Bool := .op .getVendorInterface .ret
abbrev clearVendorInterface : Cmd Unit := .op .clearVendorInterface .ret
abbrev vendorInit : Cmd Unit := .op .vendorInit .ret
abbrev powerCtrl (on : Bool) : Cmd Int := .op (.powerCtrl on) .ret
abbrev userialOpen : Cmd (Int × Int) := .op .userialOpen .ret
abbrev userialClose : Cmd Int := .op .userialClose .ret
abbrev vendorCleanup : Cmd Unit := .op .vendorCleanup .ret
abbrev pthreadCreate : Cmd Int := .op .pthreadCreate .ret
abbrev pthreadJoin (h : Nat) : Cmd Int := .op (.pthreadJoin h) .ret
abbrev keepAliveCreate : Cmd Nat := .op .keepAliveCreate .ret
abbrev pthreadDetach (h : Nat) : Cmd Unit := .op (.pthreadDetach h) .ret
abbrev ioctlReset : Cmd Unit := .op .ioctlReset .ret
abbrev poll : Cmd PollResult := .op .poll .ret
abbrev readMsg (ch : AntChannelType) : Cmd Int := .op (.readChannelMsg ch) .ret

end primitives

/-- `init_transport_bdroid(1)`: power the chip and get a descriptor. -/
def initTransportOn : Cmd Int := do
  let handle ← dlopen
  if !handle then return -1
  let found ← dlsym
  if !found then return -1
  vendorInit
  let power ← powerCtrl true
  if power < 0 then return -1
  let (ret, fd) ← userialOpen
  if ret ≠ 1 then return -1
  return fd

/-- `init_transport_bdroid(0)`: give the descriptor back and power off. -/
def initTransportOff : Cmd Int := do
  let loaded ← getVendorInterface
  if !loaded then return -1
  let _ ← userialClose
  let power ← powerCtrl false
  if power < 0 then return -1
  vendorCleanup
  clearVendorInterface
  return 0

section lifecycle
variable (b : Build)

/-- How a back end gets a descriptor for a channel. -/
def openTransport (ch : AntChannelType) : Cmd Int :=
  match b.backend with
  | .vfs => openDevice ch
  | .btVendor => initTransportOn

/-- How a back end gives it back; a failure is only logged. -/
def closeTransport (ch : AntChannelType) : Cmd Int :=
  match b.backend with
  | .vfs => closeDevice ch
  | .btVendor => initTransportOff

def antEnableChannel (ch : AntChannelType) : Cmd Int := do
  let iFd ← getFd ch
  if iFd = -1 then
    let fd ← openTransport b ch
    setFd ch fd
    let iFd ← getFd ch
    if iFd < 0 then return -1
    return 0
  else return 0

def antDisableChannel (ch : AntChannelType) : Cmd Unit := do
  let iFd ← getFd ch
  if iFd ≠ -1 then
    let _ ← closeTransport b ch
    setFd ch (-1)

/-- The loop of `ant_enable`; false at the first channel that fails. -/
def enableChannels : List AntChannelType → Cmd Bool
  | [] => return true
  | ch :: chs => do
    let iRet ← antEnableChannel b ch
    if iRet < 0 then return false
    enableChannels chs

def disableChannels : List AntChannelType → Cmd Unit
  | [] => return ()
  | ch :: chs => do
    antDisableChannel b ch
    disableChannels chs

/-- Only vfs takes the run flag back when `ant_enable` ends without a thread. -/
def releaseRunFlag : Cmd Unit :=
  match b.backend with
  | .vfs => do
    let stRxThread ← getRxThread
    if stRxThread = 0 then setRunThread false
  | .btVendor => return ()

/-- The label `out` of `ant_enable`. -/
def antEnableOut (iRet : Int) : Cmd Int := do
  releaseRunFlag b
  funcEnd .antEnable (.int iRet)
  return iRet

/-- The end of `ant_enable`: a thread may have been started, or found running. -/
def antEnableCheck : Cmd Int := do
  let ucRunThread ← getRunThread
  if !ucRunThread then antEnableOut b (-1)
  else antEnableOut b 0

def antEnable : Cmd Int := do
  funcStart .antEnable
  let result ← eventfdRead
  if result = .error then antEnableOut b (-1)
  else
    setRunThread true
    let enabled ← enableChannels b b.channels
    if !enabled then antEnableOut b (-1)
    else
      let stRxThread ← getRxThread
      if stRxThread = 0 then
        let ret ← pthreadCreate
        if ret < 0 then antEnableOut b (-1)
        else antEnableCheck b
      else antEnableCheck b

/-- The label `out` of `ant_disable`. -/
def antDisableOut (iRet : Int) : Cmd Int := do
  clearRxThread
  funcEnd .antDisable (.int iRet)
  return iRet

def antDisable : Cmd Int := do
  funcStart .antDisable
  setRunThread false
  let stRxThread ← getRxThread
  if stRxThread ≠ 0 then
    let written ← eventfdWrite
    if written < 0 then antDisableOut (-1)
    else
      let stRxThread ← getRxThread
      let joined ← pthreadJoin stRxThread
      if joined < 0 then antDisableOut (-1)
      else
        disableChannels b b.channels
        antDisableOut 0
  else
    disableChannels b b.channels
    antDisableOut 0

/-- The number of open files. -/
def countOpenFiles : List AntChannelType → Cmd Nat
  | [] => return 0
  | ch :: chs => do
    let iFd ← getFd ch
    let iOpenFiles ← countOpenFiles chs
    return if iFd ≠ -1 then iOpenFiles + 1 else iOpenFiles

/-- The status as a function of what `ant_radio_enabled_status` reads. -/
def computeStatus (iOpenFiles : Nat) (iOpenThread ucRunThread : Bool) : RadioStatus :=
  if !ucRunThread then
    if iOpenFiles ≠ 0 || iOpenThread then .disabling else .disabled
  else if iOpenFiles = b.channels.length && iOpenThread then .enabled
  else if iOpenFiles = 0 && iOpenThread then .unknown
  else .enabling

def antRadioEnabledStatus : Cmd RadioStatus := do
  let ucChipResetting ← getChipResetting
  if ucChipResetting then return .resetting
  else
    let iOpenFiles ← countOpenFiles b.channels
    let stRxThread ← getRxThread
    let ucRunThread ← getRunThread
    return computeStatus b iOpenFiles (stRxThread != 0) ucRunThread

/-- `if (g_fnStateCallback) g_fnStateCallback(status)`. -/
def reportStatus (status : Cmd RadioStatus) : Cmd Unit := do
  let set ← getStateCallback
  if set then
    let s ← status
    stateCallback s

/-- The call of `ant_enable` in `ant_enable_radio`, with its failure path. -/
def enableRadioBody : Cmd AntStatus := do
  reportStatus (return .enabling)
  let iRet ← antEnable b
  if iRet < 0 then
    let _ ← antDisable b
    reportStatus (antRadioEnabledStatus b)
    return .failed
  else
    reportStatus (return .enabled)
    return .success

/-- `ant_enable_radio` under the lock. Only vfs ignores a redundant call. -/
def enableRadioLocked : Cmd AntStatus :=
  match b.backend with
  | .vfs => do
    let current ← antRadioEnabledStatus b
    if current ≠ .enabled then enableRadioBody b
    else return .success
  | .btVendor => enableRadioBody b

def antEnableRadio : Cmd AntStatus := do
  funcStart .antEnableRadio
  let iLockResult ← mutexLock
  if iLockResult ≠ 0 then
    funcEnd .antEnableRadio (.status .failed)
    return .failed
  else
    let status ← enableRadioLocked b
    mutexUnlock
    funcEnd .antEnableRadio (.status status)
    return status

def disableRadioBody : Cmd Unit := do
  reportStatus (return .disabling)
  let _ ← antDisable b
  reportStatus (antRadioEnabledStatus b)

def disableRadioLocked : Cmd Unit :=
  match b.backend with
  | .vfs => do
    let current ← antRadioEnabledStatus b
    if current ≠ .disabled then disableRadioBody b
  | .btVendor => disableRadioBody b

def antDisableRadio : Cmd AntStatus := do
  funcStart .antDisableRadio
  let iLockResult ← mutexLock
  if iLockResult ≠ 0 then
    funcEnd .antDisableRadio (.status .failed)
    return .failed
  else
    disableRadioLocked b
    mutexUnlock
    funcEnd .antDisableRadio (.status .success)
    return .success

/-- `ant_radio_hard_reset` under the lock. -/
def hardResetLocked : Cmd AntStatus := do
  setChipResetting true
  reportStatus (return .resetting)
  ioctlReset
  let _ ← antDisable b
  let enableResult ← antEnable b
  if enableResult ≠ 0 then
    reportStatus (return .disabled)
    setChipResetting false
    return .failed
  else
    reportStatus (return .reset)
    setChipResetting false
    return .success

def antRadioHardReset : Cmd AntStatus := do
  funcStart .antRadioHardReset
  if !b.antIoctlReset then
    funcEnd .antRadioHardReset (.status .notSupported)
    return .notSupported
  else
    let iLockResult ← mutexLock
    if iLockResult ≠ 0 then
      funcEnd .antRadioHardReset (.status .failed)
      return .failed
    else
      let status ← hardResetLocked b
      mutexUnlock
      funcEnd .antRadioHardReset (.status status)
      return status

/-- `doReset` once the lock call has returned. The handle is cleared first, so
that `ant_disable` does not join the calling thread. -/
def doResetLocked (iMutexLockResult : Int) : Cmd Unit :=
  if iMutexLockResult < 0 then do
    clearRxThread
    setChipResetting false
  else do
    clearRxThread
    let _ ← antDisable b
    let enableResult ← antEnable b
    setChipResetting false
    reportStatus (return if enableResult ≠ 0 then .disabled else .reset)
    mutexUnlock

def doReset : Cmd Unit := do
  funcStart .doReset
  setChipResetting true
  reportStatus (return .resetting)
  setRunThread false
  let iMutexLockResult ← mutexLock
  doResetLocked b iMutexLockResult
  funcEnd .doReset .void

end lifecycle
end AntHal
