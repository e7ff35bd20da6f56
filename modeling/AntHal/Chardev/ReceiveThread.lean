import AntHal.Chardev.Lifecycle

/-!
The receive thread `fnRxThread` and the machine of all threads.

The thread runs through labels: its start, one iteration of the poll loop, and
behind the loop either a reset or the crash clean-up. Every call of the
application is a thread of its own, at one of the entry labels. The answers of
`poll` are arbitrary, so every outcome can be taken at every iteration.
-/

namespace AntHal

open Concurrency

inductive Label where
  | enableRadio
  | disableRadio
  | hardReset
  /-- The receive thread before its loop. -/
  | rxStart
  /-- One iteration of the poll loop. -/
  | rxLoop
  /-- The code behind the loop: disable if nobody else does. -/
  | rxClose
  | doReset
  deriving DecidableEq

section flags

def pollIn : UInt16 := 0x0001
def pollPri : UInt16 := 0x0002
def pollErr : UInt16 := 0x0008
def pollHup : UInt16 := 0x0010
def pollNval : UInt16 := 0x0020
def pollRdNorm : UInt16 := 0x0040
def pollRdHup : UInt16 := 0x2000

def eventDataAvailable : UInt16 := pollIn ||| pollRdNorm
def eventChipShutdown : UInt16 := pollHup
def eventHardReset : UInt16 := pollErr ||| pollPri ||| pollRdHup

def areAllFlagsSet (value flags : UInt16) : Bool := value &&& flags == flags

end flags

section fnRxThread
variable (b : Build)

/-- The poll requests are filled from the descriptors; a stale wait is reset. -/
def rxStart : Cmd (Option Label) := do
  funcStart .fnRxThread
  readFds b.channels
  setWaiting false
  return some .rxLoop
where
  readFds : List AntChannelType → Cmd Unit
    | [] => return ()
    | ch :: chs => do
      let _ ← getFd ch
      readFds chs

/-- The loop over the channels that poll has looked at; true calls for a reset.
After a failing read bt-vendor_vfs leaves the loop instead. -/
def handleChannels (revents : AntChannelType → UInt16) : List AntChannelType → Cmd Bool
  | [] => return false
  | ch :: chs =>
    if areAllFlagsSet (revents ch) eventHardReset then return true
    else if areAllFlagsSet (revents ch) eventChipShutdown then return true
    else if areAllFlagsSet (revents ch) eventDataAvailable then do
      setWaiting false
      let iRet ← readMsg ch
      if iRet < 0 then
        match b.backend with
        | .vfs => return true
        | .btVendor =>
          setRunThread false
          handleChannels revents chs
      else handleChannels revents chs
    else if areAllFlagsSet (revents ch) pollNval then return true
    else if areAllFlagsSet (revents ch) pollErr then return true
    else handleChannels revents chs

/-- The shutdown signal, or any other event of its descriptor. -/
def handleShutdown (revents : UInt16) : Cmd Unit :=
  if areAllFlagsSet revents pollIn then do
    let _ ← eventfdRead
    setRunThread false
  else if revents ≠ 0 then setRunThread false
  else return ()

def rxLoop : Cmd (Option Label) := do
  let ucRunThread ← getRunThread
  if !ucRunThread then return some .rxClose
  else
    let _timeout ← getWaiting
    let result ← poll
    if result.iPollRet = 0 then
      let waiting ← getWaiting
      if !waiting then
        setWaiting true
        let thread ← keepAliveCreate
        pthreadDetach thread
        return some .rxLoop
      else return some .doReset
    else if result.iPollRet < 0 then return some .doReset
    else
      let reset ← handleChannels b result.revents b.channels
      if reset then return some .doReset
      else
        handleShutdown result.shutdown
        return some .rxLoop

/-- The clean-up behind the loop, when the trylock has succeeded. -/
def crashCleanUp (iMutexLockResult : Int) : Cmd Unit :=
  if iMutexLockResult = 0 then do
    clearRxThread
    reportStatus (return .disabling)
    let _ ← antDisable b
    reportStatus (antRadioEnabledStatus b)
    mutexUnlock
  else return ()

/-- Disable the radio if the lock is free; a busy lock means that somebody made
the thread exit. -/
def rxClose : Cmd (Option Label) := do
  let iMutexLockResult ← mutexTrylock
  crashCleanUp b iMutexLockResult
  funcEnd .fnRxThread .void
  return none

def body : Label → Cmd (Option Label)
  | .enableRadio => do
    let _ ← antEnableRadio b
    return none
  | .disableRadio => do
    let _ ← antDisableRadio b
    return none
  | .hardReset => do
    let _ ← antRadioHardReset b
    return none
  | .rxStart => rxStart b
  | .rxLoop => rxLoop b
  | .rxClose => rxClose b
  | .doReset => do
    doReset b
    funcEnd .fnRxThread .void
    return none

end fnRxThread

/-- The calls of the public interface, made by threads of the application. -/
def isEntry : Tid → Label → Bool
  | .app _, .enableRadio | .app _, .disableRadio | .app _, .hardReset => true
  | _, _ => false

/-- A lock waits for its holder, a join for the end of the thread. -/
def isReady (pool : Pool Op Op.Res Label Tid) : (o : Op) → Shared → Bool
  | .mutexLock, s => s.stEnabledStatusLock.isNone
  | .pthreadJoin h, _ => (pool (.rx h)).any Thread.terminated
  | _, _ => true

/-- A successful pthread_create starts the receive thread under its handle. -/
def spawned : (o : Op) → o.Res → Shared → Option (Tid × Label)
  | .pthreadCreate, ret, s => if ret = 0 then some (.rx s.stRxThread, .rxStart) else none
  | _, _, _ => none

/-- The recorded thread changes when it is cleared, or newly created. -/
theorem stRxThread_effect (b : Build) (t : Tid) (env : Env) (o : Op) (s : Shared) :
    (effect b t env o s).2.stRxThread = s.stRxThread ∨
    (effect b t env o s).2.stRxThread = 0 ∨
    spawned o (effect b t env o s).1 (effect b t env o s).2 =
      some (.rx (effect b t env o s).2.stRxThread, .rxStart) := by
  cases o with
  | clearRxThread => exact .inr (.inl rfl)
  | pthreadCreate =>
      simp only [effect]
      split
      · exact .inr (.inr rfl)
      · exact .inl rfl
  | mutexTrylock | openDevice | keepAliveCreate | eventfdWrite =>
      simp only [effect]
      split <;> exact .inl rfl
  | _ => exact .inl rfl

theorem events_effect (b : Build) (t : Tid) (env : Env) (o : Op) (s : Shared) :
    s.events <+: (effect b t env o s).2.events := by
  have hsame : s.events <+: s.events := List.prefix_refl _
  have hlog : ∀ e, s.events <+: s.events ++ [e] := fun e => List.prefix_append _ _
  cases o with
  | mutexTrylock | openDevice | keepAliveCreate | eventfdWrite | pthreadCreate =>
      simp only [effect]
      split
      all_goals first | exact hsame | exact hlog _
  | _ => first | exact hsame | exact hlog _

/-- Only `setRunThread` raises the run flag. -/
theorem ucRunThread_effect (b : Build) (t : Tid) (env : Env) {o : Op} {s : Shared}
    (ho : o ≠ .setRunThread true) (hs : s.ucRunThread = false) :
    (effect b t env o s).2.ucRunThread = false := by
  cases o with
  | setRunThread v =>
      cases v with
      | false => rfl
      | true => exact absurd rfl ho
  | mutexTrylock | openDevice | keepAliveCreate | eventfdWrite | pthreadCreate =>
      simp only [effect]
      split <;> exact hs
  | _ => exact hs

def machine (b : Build) : Machine Op Op.Res Label Tid Shared Env where
  body := body b
  entry := isEntry
  ready pool _ _ o s := isReady pool o s
  effect := effect b
  spawn := spawned

abbrev ThreadConfig : Type := Config Op Op.Res Label Tid Shared

/-- No call has been made yet after `ant_init`. -/
def initConfig (stateCallback rxCallback : Bool) : ThreadConfig :=
  ⟨.init stateCallback rxCallback, fun _ => none⟩

/-- A call of the application starts no receive thread. -/
theorem start_rx {b : Build} {c d : ThreadConfig} {t : Tid} {l : Label}
    (hs : (machine b).step (.start t l) c = some d) :
    d.shared = c.shared ∧ ∀ h, d.pool (.rx h) = c.pool (.rx h) := by
  obtain ⟨hentry, -, rfl⟩ := Machine.step_start hs
  cases t with
  | rx h => cases l <;> cases hentry
  | app n => simp

/-- A receive thread exists if the log has its creation. -/
theorem created_of_pool {b : Build} {stateCallback rxCallback : Bool} {c : ThreadConfig}
    (hreach : (machine b).Reachable (initConfig stateCallback rxCallback) c) {h : Nat}
    {th : Thread Op Op.Res Label} (hth : c.pool (.rx h) = some th) :
    .created h ∈ c.shared.events := by
  refine hreach.invariant (I := fun c => ∀ h th, c.pool (.rx h) = some th →
    .created h ∈ c.shared.events) ?_ (fun h th hth => nomatch hth) h th hth
  intro c mv d hI _ hs h th hth
  cases mv with
  | start t l =>
      obtain ⟨hshared, hrx⟩ := start_rx hs
      rw [hshared]
      exact hI h th ((hrx h).symm.trans hth)
  | act t env =>
      obtain ⟨l, o, k, ha⟩ := Machine.step_act hs
      have hshared : d.shared = (effect b t env o c.shared).2 := ha.shared
      have hgrow := (events_effect b t env o c.shared).subset
      rw [hshared]
      rcases ha.cases hth with ⟨rfl, -⟩ | ⟨lu, hspawn, -⟩ | ⟨-, hold⟩
      · exact hgrow (hI h _ ha.thread)
      · cases o <;> simp only [machine, spawned, reduceCtorEq] at hspawn
        split at hspawn
        · rename_i hret
          simp only [effect] at hret hspawn ⊢
          split at hret
          · rename_i hok
            simp only [hshared, effect, hok, if_true] at hspawn ⊢
            cases hspawn
            exact List.mem_append_right _ (List.mem_singleton.mpr rfl)
          · rename_i herr
            exact absurd (Int.natCast_eq_zero.mp hret) herr
        · cases hspawn
      · exact hgrow (hI h th hold)

/-- `ant_radio_enabled_status` evaluated at once in a state. -/
def radioEnabledStatus (b : Build) (s : Shared) : RadioStatus :=
  ((antRadioEnabledStatus b).run (effect b (.app 0) {}) s).1

/-- An undisturbed first call of `ant_enable_radio`, with a state callback and
two channels. -/
def enabling : List (Move Label Tid Env) :=
  .start (.app 0) .enableRadio :: List.replicate 29 (.act (.app 0) {})

end AntHal
