import AntHal.Bluez.Transmit

/-!
The receive thread `ANTHCIRxThread` of ant_rx.c and the machine of all threads.

Every call of the application is a thread of its own, at one of the entry
labels. The sockets answer arbitrarily.
-/

namespace AntHal.Bluez

open Concurrency

section rxThread
variable (b : Build)

/-- Without a socket the thread ends at once, behind its clean-up. -/
def rxStart : Cmd (Option Label) := do
  funcStart .antHciRxThread
  let rxSocket ← createHciSock
  if rxSocket < 0 then return none
  else
    let ret ← setsockopt rxSocket
    if ret < 0 then return some (.rxClose rxSocket)
    else return some (.rxLoop rxSocket)

def rxLoop (rxSocket : Int) : Cmd (Option Label) := do
  let status ← getAndSetRadioStatus b
  if status = .enabled then return some (.rxPoll rxSocket)
  else return some (.rxClose rxSocket)

/-- One attempt of poll; it times out once in a while. -/
def rxPoll (rxSocket : Int) : Cmd (Option Label) := do
  let n ← poll rxSocket
  return some <| match n with
    | .again => .rxPoll rxSocket
    | .error => .rxClose rxSocket
    | .ok n => if n = 0 then .rxLoop rxSocket else .rxRead rxSocket

/-- The payload of a valid packet is passed to the callback. -/
def deliver (len : Nat) (buf : Memory) : Cmd Unit :=
  let hciPayloadLen := validateHciEventPacket b.board buf len
  if hciPayloadLen = -1 then return ()
  else do
    let set ← getRxCallback
    if set then
      rxCallback ((List.range hciPayloadLen.toNat).map fun i =>
        buf (b.board.hciEventTotalOverhead + i))

def rxRead (rxSocket : Int) : Cmd (Option Label) := do
  let packet ← read rxSocket
  match packet with
  | .again => return some (.rxRead rxSocket)
  | .error => return some (.rxClose rxSocket)
  | .ok (len, buf) =>
    deliver b len buf
    return some (.rxLoop rxSocket)

/-- DISABLING is reported, but not stored. -/
def reportDisabling : Cmd Unit := do
  let set ← getStateCallback
  if set then stateCallback .disabling

/-- The radio after the crash of the socket. -/
def crashDisable : Cmd Unit :=
  if b.useExternalPowerLibrary then do
    reportDisabling
    let _ ← antDisable
    let _ ← getAndSetRadioStatus b
    return ()
  else setRadioStatus .disabled

/-- A busy lock means that somebody made the thread exit. -/
def crashCleanUp (result : Int) : Cmd Unit :=
  if result = 0 then do
    crashDisable b
    clearThread
    mutexUnlock .enableLock
  else return ()

def rxClose (rxSocket : Int) : Cmd (Option Label) := do
  let result ← mutexTrylock
  crashCleanUp b result
  close rxSocket
  return none

def body : Label → Cmd (Option Label)
  | .enableRadio => do
    let _ ← antEnableRadio b
    return none
  | .disableRadio => do
    let _ ← antDisableRadio b
    return none
  | .radioEnabledStatus => do
    let _ ← antRadioEnabledStatus b
    return none
  | .txMessage pucMesg => antTxMessage b pucMesg
  | .txWrite tx => txWrite b tx
  | .txWait tx => txWait tx
  | .txRead tx => txRead b tx
  | .txClose tx => txClose tx
  | .rxStart => rxStart
  | .rxLoop rxSocket => rxLoop b rxSocket
  | .rxPoll rxSocket => rxPoll rxSocket
  | .rxRead rxSocket => rxRead b rxSocket
  | .rxClose rxSocket => rxClose b rxSocket

end rxThread

def Label.isRx : Label → Bool
  | .rxStart | .rxLoop _ | .rxPoll _ | .rxRead _ | .rxClose _ => true
  | _ => false

/-- The calls of the public interface, made by threads of the application. The
length of a message is a byte. -/
def isEntry : Tid → Label → Bool
  | .app _, .enableRadio | .app _, .disableRadio | .app _, .radioEnabledStatus => true
  | .app _, .txMessage pucMesg => pucMesg.length < 256
  | _, _ => false

/-- A lock waits for its holder unless the call fails, a join for the end of the
thread. -/
def isReady (pool : Pool Op Op.Res Label Tid) (env : Env) : (o : Op) → Shared → Bool
  | .mutexLock l, s => (s.locks l).isNone || env.mutex ≠ 0
  | .pthreadJoin h, _ => (pool (.rx h)).any Thread.terminated
  | _, _ => true

/-- A successful pthread_create starts the receive thread under its handle. -/
def spawned : (o : Op) → o.Res → Shared → Option (Tid × Label)
  | .pthreadCreate, ret, s => if ret = 0 then some (.rx s.thread, .rxStart) else none
  | _, _, _ => none

theorem spawned_rx {o : Op} {r : o.Res} {s : Shared} {u : Tid} {l : Label}
    (h : spawned o r s = some (u, l)) :
    o = .pthreadCreate ∧ (∃ handle, u = .rx handle) ∧ l = .rxStart := by
  cases o <;> simp only [spawned, reduceCtorEq] at h
  split at h
  · cases h
    exact ⟨rfl, ⟨s.thread, rfl⟩, rfl⟩
  · cases h

def machine (b : Build) : Machine Op Op.Res Label Tid Shared Env where
  body := body b
  entry := isEntry
  ready pool _ env o s := isReady pool env o s
  effect := effect
  spawn := spawned

abbrev ThreadConfig : Type := Config Op Op.Res Label Tid Shared

/-- No call has been made yet after `ant_init`. -/
def initConfig (stateCallback rxCallback : Bool) : ThreadConfig :=
  ⟨.init stateCallback rxCallback, fun _ => none⟩

theorem thread_kept (t : Tid) (env : Env) {o : Op} (s : Shared) (hclear : o ≠ .clearThread)
    (hcreate : o ≠ .pthreadCreate) : (effect t env o s).2.thread = s.thread := by
  cases o with
  | clearThread => exact absurd rfl hclear
  | pthreadCreate => exact absurd rfl hcreate
  | mutexLock | mutexTrylock | read | writev =>
      simp only [effect]
      repeat' split
      all_goals rfl
  | _ => rfl

/-- The recorded thread changes when it is cleared, or newly created. -/
theorem thread_effect (t : Tid) (env : Env) (o : Op) (s : Shared) :
    (effect t env o s).2.thread = s.thread ∨ (effect t env o s).2.thread = 0 ∨
    spawned o (effect t env o s).1 (effect t env o s).2 =
      some (.rx (effect t env o s).2.thread, .rxStart) := by
  by_cases hclear : o = .clearThread
  · subst hclear
    exact .inr (.inl rfl)
  by_cases hcreate : o = .pthreadCreate
  · subst hcreate
    simp only [effect]
    split
    · exact .inr (.inr rfl)
    · exact .inl rfl
  · exact .inl (thread_kept t env s hclear hcreate)

theorem radioStatus_kept (t : Tid) (env : Env) {o : Op} (s : Shared)
    (h : ∀ status, o ≠ .setRadioStatus status) :
    (effect t env o s).2.radioStatus = s.radioStatus := by
  cases o with
  | setRadioStatus status => exact absurd rfl (h status)
  | mutexLock | mutexTrylock | pthreadCreate | read | writev =>
      simp only [effect]
      repeat' split
      all_goals rfl
  | _ => rfl

end AntHal.Bluez
