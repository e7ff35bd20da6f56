import AntHal.Concurrency.Typestate
import AntHal.Chardev.FlowControl

/-!
Resends: `ant_tx_message_flowcontrol_wait` with ANT_FLOW_RESEND, and what
`readChannelMsg` does for a FLOW_ON.

The receive thread looks at ucResendMessageLength and pucResendMessage without
stFlowControlLock. So a section of a send is not one step here: the store of the
two, the write, the test of the response and the return come one by one, and so
do the reads of the receive thread. The two are stored together.

A wait may end at any time, so pthread_cond_signal is left out.
-/

namespace AntHal

open Concurrency

structure ResendShared where
  info : AntChannelInfo
  /-- The thread of every call of `ant_tx_message` so far. A call is known by its
  place here, and so is its txBuffer. -/
  calls : List FlowTid
  /-- The call whose txBuffer it points to. -/
  pucResendMessage : Option Nat
  stFlowControlLock : Option FlowTid
  returned : Nat → Option AntStatus
  /-- The receive thread has found a length and is about to read the pointer. -/
  resending : Bool
  /-- The pointer that the receive thread has read, until it has written. -/
  pucTxMessage : Option Nat

/-- The packets of a channel, by what the receive thread does for them. -/
inductive RxPacket where
  | commandComplete
  | flowOn
  /-- A flow control message in an ANT event. -/
  | flowControl (ucFlowSetting : UInt8)
  | other

structure ResendEnv where
  iMutexResult : Nat := 0
  write : Int := 0
  iCondWaitResult : Int := 0
  packet : RxPacket := .other

inductive ResendOp where
  | beginCall
  | mutexLock
  | mutexUnlock
  | storeFlowControlResp (setting : UInt8)
  /-- The store of the length and of the pointer. -/
  | storeResend (n : Nat) (ucMessageLength : UInt8)
  | write (n : Nat) (ucMessageLength : UInt8)
  | getFlowControlResp (n : Nat)
  /-- pthread_cond_timedwait until it blocks, and from its wake-up on. -/
  | condTimedwait (n : Nat)
  | condWake (n : Nat)
  | clearResend (n : Nat)
  | returnStatus (n : Nat) (status : AntStatus)
  | nextPacket
  /-- `ucResendMessageLength > 0` -/
  | checkResend
  | getResendMessageLength
  | getResendMessage
  /-- The write of `ant_tx_message_flowcontrol_none`. -/
  | resend (ucMessageLength : UInt8) (pucTxMessage : Option Nat)
  deriving DecidableEq

@[reducible] def ResendOp.Res : ResendOp → Type
  | .beginCall | .mutexLock => Nat
  | .write _ _ | .condWake _ => Int
  | .getFlowControlResp _ | .getResendMessageLength => UInt8
  | .nextPacket => RxPacket
  | .checkResend => Bool
  | .getResendMessage => Option Nat
  | _ => Unit

namespace ResendShared

/-- What `ant_channel_init` leaves. -/
def init (info : AntChannelInfo) : ResendShared :=
  ⟨{ info with ucResendMessageLength := 0 }, [], none, none, fun _ => none, false, none⟩

variable (s : ResendShared)

def setResend (ucMessageLength : UInt8) (pucTxMessage : Option Nat) : ResendShared :=
  { s with
    info := { s.info with ucResendMessageLength := ucMessageLength }
    pucResendMessage := pucTxMessage }

def setLock (owner : Option FlowTid) : ResendShared := { s with stFlowControlLock := owner }

/-- The message that the receive thread would send again is the one of call `n`. -/
def registered (n : Nat) : Bool :=
  decide (s.pucResendMessage = some n) && decide (0 < s.info.ucResendMessageLength)

end ResendShared

def resendEffect (t : FlowTid) (env : ResendEnv) :
    (o : ResendOp) → ResendShared → o.Res × ResendShared
  | .beginCall, s => (s.calls.length, { s with calls := s.calls ++ [t] })
  | .mutexLock, s =>
    (env.iMutexResult, if env.iMutexResult = 0 then s.setLock (some t) else s)
  | .mutexUnlock, s => ((), s.setLock none)
  | .storeFlowControlResp setting, s =>
    ((), { s with info := { s.info with ucFlowControlResp := setting } })
  | .storeResend n len, s => ((), s.setResend len (some n))
  | .write _ _, s => (env.write, s)
  | .getFlowControlResp _, s => (s.info.ucFlowControlResp, s)
  | .condTimedwait _, s => ((), s.setLock none)
  | .condWake _, s => (env.iCondWaitResult, s.setLock (some t))
  | .clearResend _, s => ((), s.setResend 0 none)
  | .returnStatus n status, s =>
    ((), { s with returned := Function.update s.returned n (some status) })
  | .nextPacket, s => (env.packet, s)
  | .checkResend, s =>
    (decide (0 < s.info.ucResendMessageLength),
      { s with resending := decide (0 < s.info.ucResendMessageLength) })
  | .getResendMessageLength, s => (s.info.ucResendMessageLength, s)
  | .getResendMessage, s =>
    (s.pucResendMessage, { s with resending := false, pucTxMessage := s.pucResendMessage })
  | .resend _ _, s => ((), { s with pucTxMessage := none })

inductive ResendLabel where
  | send (ucMessageLength : UInt8)
  /-- In the loop, blocked in the wait. -/
  | waiting (n : Nat)
  /-- The receive thread, between two packets. -/
  | receive

abbrev ResendCmd (α : Type) : Type := Prog ResendOp ResendOp.Res α

/-- One operation by itself. -/
abbrev atom (o : ResendOp) : ResendCmd o.Res := .op o .ret

section programs
variable (d : HciDefines)

/-- Unlock and return a status. -/
def leaveSend (n : Nat) (status : AntStatus) : ResendCmd (Option ResendLabel) := do
  atom .mutexUnlock
  atom (.returnStatus n status)
  return none

/-- The test of the loop: wait, or leave with success. -/
def testResp (n : Nat) : ResendCmd (Option ResendLabel) := do
  let ucFlowControlResp ← atom (.getFlowControlResp n)
  if ucFlowControlResp ≠ d.flowGo then
    atom (.condTimedwait n)
    return some (.waiting n)
  else leaveSend n .success

/-- The code under `#ifdef ANT_FLOW_RESEND`. -/
def ifFlowResend (o : ResendCmd Unit) : ResendCmd Unit :=
  if d.flowResend then o else return ()

/-- `ant_tx_message_flowcontrol_wait` up to its first wait. -/
def sendSection (n : Nat) (ucMessageLength : UInt8) : ResendCmd (Option ResendLabel) := do
  let iMutexResult ← atom .mutexLock
  if iMutexResult ≠ 0 then
    atom (.returnStatus n .failed)
    return none
  else
    atom (.storeFlowControlResp d.flowStop)
    ifFlowResend d (atom (.storeResend n ucMessageLength))
    let iResult ← atom (.write n ucMessageLength)
    if iResult < 0 then leaveSend n .failed
    else if iResult ≠ ucMessageLength.toNat then leaveSend n .failed
    else testResp d n

/-- `ant_tx_message`, whose packet is in its txBuffer. -/
def sendResendable (ucMessageLength : UInt8) : ResendCmd (Option ResendLabel) := do
  let txBuffer ← atom .beginCall
  sendSection d txBuffer ucMessageLength

/-- The loop from the end of a wait to the next one. -/
def resumeSection (n : Nat) : ResendCmd (Option ResendLabel) := do
  let iCondWaitResult ← atom (.condWake n)
  if iCondWaitResult ≠ 0 then
    if iCondWaitResult = etimedout then
      ifFlowResend d (atom (.clearResend n))
      leaveSend n .hardwareErr
    else leaveSend n .failed
  else testResp d n

/-- `setFlowControl` by the receive thread, which ends when the lock fails. -/
def storeSetting (ucFlowSetting : UInt8) : ResendCmd (Option ResendLabel) := do
  let iMutexResult ← atom .mutexLock
  if iMutexResult ≠ 0 then return none
  else
    atom (.storeFlowControlResp ucFlowSetting)
    atom .mutexUnlock
    return some .receive

/-- FLOW_ON: send the last message again, if there is one. -/
def resendLast : ResendCmd (Option ResendLabel) := do
  let more ← atom .checkResend
  if more then
    let ucMessageLength ← atom .getResendMessageLength
    let pucTxMessage ← atom .getResendMessage
    atom (.resend ucMessageLength pucTxMessage)
    return some .receive
  else return some .receive

def receivePacket : ResendCmd (Option ResendLabel) := do
  let packet ← atom .nextPacket
  match packet with
  | .commandComplete => storeSetting d.flowGo
  | .flowOn => if d.opcode.isSome ∧ d.flowResend then resendLast else return some .receive
  | .flowControl ucFlowSetting => storeSetting ucFlowSetting
  | .other => return some .receive

def resendBody : ResendLabel → ResendCmd (Option ResendLabel)
  | .send ucMessageLength => sendResendable d ucMessageLength
  | .waiting n => resumeSection d n
  | .receive => receivePacket d

end programs

def isResendEntry : FlowTid → ResendLabel → Bool
  | .sender _, .send _ | .receiver, .receive => true
  | _, _ => false

/-- A thread blocks while another one has stFlowControlLock. -/
def isResendReady (env : ResendEnv) : ResendOp → ResendShared → Bool
  | .mutexLock, s => env.iMutexResult ≠ 0 || s.stFlowControlLock.isNone
  | .condWake _, s => s.stFlowControlLock.isNone
  | _, _ => true

/-- Any number of sends on one flow message path, with the receive thread. -/
def resendMachine (d : HciDefines) :
    Machine ResendOp ResendOp.Res ResendLabel FlowTid ResendShared ResendEnv where
  body := resendBody d
  entry := isResendEntry
  ready _ _ := isResendReady
  effect := resendEffect
  spawn _ _ _ := none

abbrev ResendConfig : Type := Config ResendOp ResendOp.Res ResendLabel FlowTid ResendShared

def resendInit (info : AntChannelInfo) : ResendConfig := ⟨.init info, fun _ => none⟩

section refinement
variable (d : HciDefines) (env : ResendEnv) (t : FlowTid)

/-- Run alone, the two agree on the channel and on what the send has returned. -/
def Agrees (s : ResendShared) (n : Nat) (r : Option AntStatus × FlowShared) : Prop :=
  s.info = r.2.info ∧ s.returned n = r.1

variable {d env t} {s : ResendShared} {f : FlowShared} {n : Nat}

theorem leaveSend_run (status : AntStatus) (hinfo : s.info = f.info) :
    Agrees ((leaveSend n status).run (resendEffect t env) s).2 n (f.leave n status) :=
  ⟨hinfo, Function.update_self _ _ _⟩

theorem testResp_run (hinfo : s.info = f.info) (hreturned : s.returned n = none) :
    Agrees ((testResp d n).run (resendEffect t env) s).2 n (f.testGo d n) := by
  change Agrees (Prog.run _ (if s.info.ucFlowControlResp ≠ d.flowGo then _ else _) s).2 n _
  unfold FlowShared.testGo
  rw [← hinfo]
  by_cases hgo : s.info.ucFlowControlResp = d.flowGo
  · rw [if_neg (not_not.mpr hgo), if_neg (not_not.mpr hgo)]
    exact leaveSend_run .success hinfo
  · rw [if_pos hgo, if_pos hgo]
    exact ⟨rfl, hreturned⟩

/-- Behind the store of the message: the write and the first test. -/
theorem write_run {g : FlowShared} {len : UInt8} (hinfo : s.info = f.info)
    (hinfo' : s.info = g.info) (hreturned : s.returned n = none) :
    Agrees (Prog.run (resendEffect t env) (.op (.write n len) fun iResult =>
      if iResult < 0 then leaveSend n .failed
      else if iResult ≠ len.toNat then leaveSend n .failed
      else testResp d n) s).2 n
      (if env.write < 0 then f.leave n .failed
      else if env.write ≠ len.toNat then f.leave n .failed
      else g.testGo d n) := by
  change Agrees (Prog.run _ (if env.write < 0 then _ else if env.write ≠ len.toNat then _ else _)
    s).2 n _
  split
  · exact leaveSend_run .failed hinfo
  · split
    · exact leaveSend_run .failed hinfo
    · exact testResp_run hinfo' hreturned

/-- Run alone, a section is the step that it is where sections are atomic. -/
theorem sendSection_run (len : UInt8) (hinfo : s.info = f.info)
    (hreturned : s.returned n = none) :
    Agrees ((sendSection d n len).run (resendEffect t env) s).2 n
      (f.txSection d { iMutexResult := env.iMutexResult, write := env.write } n len) := by
  change Agrees (Prog.run _ (if env.iMutexResult ≠ 0 then _ else _)
    (if env.iMutexResult = 0 then s.setLock (some t) else s)).2 n _
  unfold FlowShared.txSection
  by_cases hmutex : env.iMutexResult = 0
  · rw [if_neg (not_not.mpr hmutex), if_pos hmutex, if_neg (not_not.mpr hmutex)]
    have hstop : (f.stop d len).info = { s.info with
        ucFlowControlResp := d.flowStop
        ucResendMessageLength := if d.flowResend then len else s.info.ucResendMessageLength } := by
      rw [FlowShared.stop, hinfo]
    cases hresend : d.flowResend with
    | false =>
        rw [hresend] at hstop
        simp only [ifFlowResend, hresend, Bool.false_eq_true, if_false]
        exact write_run hstop.symm hstop.symm hreturned
    | true =>
        rw [hresend] at hstop
        simp only [ifFlowResend, hresend, if_true]
        exact write_run hstop.symm hstop.symm hreturned
  · rw [if_pos hmutex, if_neg hmutex, if_pos hmutex]
    exact ⟨hinfo, Function.update_self _ _ _⟩

/-- The same for the loop behind a wait. -/
theorem resumeSection_run (hinfo : s.info = f.info) (hreturned : s.returned n = none) :
    Agrees ((resumeSection d n).run (resendEffect t env) s).2 n
      (f.wakeSection d n env.iCondWaitResult) := by
  change Agrees (Prog.run _ (if env.iCondWaitResult ≠ 0 then
    if env.iCondWaitResult = etimedout then _ else _ else _) (s.setLock (some t))).2 n _
  unfold FlowShared.wakeSection
  split
  · split
    · cases hresend : d.flowResend with
      | false =>
          simp only [ifFlowResend, hresend, Bool.false_eq_true, if_false]
          exact leaveSend_run .hardwareErr hinfo
      | true =>
          simp only [ifFlowResend, hresend, if_true]
          exact leaveSend_run .hardwareErr
            (congrArg (fun info : AntChannelInfo => { info with ucResendMessageLength := 0 }) hinfo)
    · exact leaveSend_run .failed hinfo
  · exact testResp_run hinfo hreturned

/-- The receive thread stores a setting as `setFlowControl` does. -/
theorem storeSetting_run (ucFlowSetting : UInt8) :
    ((storeSetting ucFlowSetting).run (resendEffect t env) s).2.info =
      (setFlowControl env.iMutexResult s.info ucFlowSetting).2 := by
  change (Prog.run _ (if env.iMutexResult ≠ 0 then _ else _)
    (if env.iMutexResult = 0 then s.setLock (some t) else s)).2.info = _
  unfold setFlowControl
  by_cases hmutex : env.iMutexResult = 0
  · rw [if_neg (not_not.mpr hmutex), if_pos hmutex, if_neg (not_not.mpr hmutex)]
    rfl
  · rw [if_pos hmutex, if_neg hmutex, if_pos hmutex]
    rfl

end refinement

end AntHal
