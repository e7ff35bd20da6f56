import AntHal.Concurrency.Machine
import AntHal.Common.Types
import AntHal.Chardev.Receive

/-!
Concurrent senders: `ant_tx_message_flowcontrol_wait` of ant_native_chardev.c.

Both back ends share this text. A section between locking and unlocking
stFlowControlLock, or waiting on stFlowControlCond, is one step. All sends of
one flow message path share one response byte and one condition variable; the
receive thread stores the flow control packets in that byte and signals.

A wait can end because it is signalled, for no reason, or at its deadline.
-/

namespace AntHal

open Concurrency

/-- The threads: a number for each send, the receive thread, and time. -/
inductive FlowTid where
  | sender (n : Nat)
  | receiver
  | clock
  deriving DecidableEq

structure FlowShared where
  /-- The channel info of the flow message path. -/
  info : AntChannelInfo
  /-- The sends blocked in pthread_cond_timedwait. -/
  waiters : List Nat
  now : Nat
  /-- The local variable of each send. -/
  stTimeout : Nat → Nat
  /-- The sends whose message has been written completely. -/
  written : List Nat
  /-- The GO packet that answers the send has been stored. -/
  go : Nat → Bool
  /-- The same, and `setFlowControl` has signalled and returned. -/
  signalled : Nat → Bool
  returned : Nat → Option AntStatus

structure FlowEnv where
  iMutexResult : Nat := 0
  write : Int := 0
  /-- A wait that could time out does. -/
  expired : Bool := false
  /-- The next flow control packet: the send it answers, and its setting. -/
  packet : Nat × UInt8 := (0, 0)
  /-- The waiters that pthread_cond_signal wakes, at least one. -/
  woken : Nat → Bool := fun _ => true

inductive FlowOp where
  /-- From the lock to the first wait, or to the end. -/
  | txSection (n : Nat) (ucMessageLength : UInt8)
  /-- pthread_cond_timedwait, before the lock is taken again. -/
  | condTimedwait (n : Nat)
  /-- From there to the next wait, or to the end. -/
  | wakeSection (n : Nat) (iCondWaitResult : Int)
  | nextPacket
  | setFlowControl (i : Nat) (ucFlowSetting : UInt8)
  | condSignal (i : Nat)
  | tick

@[reducible] def FlowOp.Res : FlowOp → Type
  | .txSection _ _ | .wakeSection _ _ => Option AntStatus
  | .condTimedwait _ | .setFlowControl _ _ => Int
  | .nextPacket => Nat × UInt8
  | _ => Unit

def antFlowGoWaitTimeoutSec : Nat := 10

def etimedout : Int := 110

namespace FlowShared

def init (info : AntChannelInfo) : FlowShared :=
  ⟨info, [], 0, fun _ => 0, [], fun _ => false, fun _ => false, fun _ => none⟩

/-- Unlock and return a status. -/
def leave (n : Nat) (status : AntStatus) (s : FlowShared) : Option AntStatus × FlowShared :=
  (some status, { s with returned := Function.update s.returned n (some status) })

variable (d : HciDefines) (env : FlowEnv)

/-- The test of the loop: wait, or leave with success. -/
def testGo (n : Nat) (s : FlowShared) : Option AntStatus × FlowShared :=
  if s.info.ucFlowControlResp ≠ d.flowGo then (none, { s with waiters := n :: s.waiters })
  else s.leave n .success

/-- The channel is stopped, and the message kept for a resend if there is one. -/
def stop (ucMessageLength : UInt8) (s : FlowShared) : FlowShared :=
  { s with info := { s.info with
      ucFlowControlResp := d.flowStop
      ucResendMessageLength :=
        if d.flowResend then ucMessageLength else s.info.ucResendMessageLength } }

def txSection (n : Nat) (ucMessageLength : UInt8) (s : FlowShared) :
    Option AntStatus × FlowShared :=
  if env.iMutexResult ≠ 0 then s.leave n .failed
  else
    let stopped := s.stop d ucMessageLength
    let iResult := env.write
    if iResult < 0 then stopped.leave n .failed
    else if iResult ≠ ucMessageLength.toNat then stopped.leave n .failed
    else
      testGo d n { stopped with
        stTimeout := Function.update s.stTimeout n (s.now + antFlowGoWaitTimeoutSec)
        written := n :: s.written }

/-- A waiter that nobody has woken wakes at its deadline, or spuriously. -/
def condTimedwait (n : Nat) (s : FlowShared) : Int × FlowShared :=
  if n ∈ s.waiters then
    (if env.expired && decide (s.stTimeout n ≤ s.now) then etimedout else 0,
      { s with waiters := s.waiters.filter (· ≠ n) })
  else (0, s)

/-- A wait that failed ends the send without another look at the response. -/
def wakeSection (n : Nat) (iCondWaitResult : Int) (s : FlowShared) :
    Option AntStatus × FlowShared :=
  if iCondWaitResult ≠ 0 then
    if iCondWaitResult = etimedout then
      { s with info := { s.info with
          ucResendMessageLength :=
            if d.flowResend then 0 else s.info.ucResendMessageLength } }.leave n .hardwareErr
    else s.leave n .failed
  else s.testGo d n

/-- The section of `setFlowControl` for the packet that answers the send `i`. -/
def setFlowControl (i : Nat) (ucFlowSetting : UInt8) (s : FlowShared) : Int × FlowShared :=
  let r := AntHal.setFlowControl env.iMutexResult s.info ucFlowSetting
  (r.1, { s with
    info := r.2
    go := if r.1 = 0 ∧ ucFlowSetting = d.flowGo ∧ i ∈ s.written then
        Function.update s.go i true
      else s.go })

def condSignal (i : Nat) (s : FlowShared) : FlowShared :=
  { s with
    waiters := if s.waiters.any env.woken then s.waiters.filter (!env.woken ·) else []
    signalled := if s.go i then Function.update s.signalled i true else s.signalled }

end FlowShared

def flowEffect (d : HciDefines) (env : FlowEnv) : (o : FlowOp) → FlowShared → o.Res × FlowShared
  | .txSection n len, s => s.txSection d env n len
  | .condTimedwait n, s => s.condTimedwait env n
  | .wakeSection n res, s => s.wakeSection d n res
  | .nextPacket, s => (env.packet, s)
  | .setFlowControl i setting, s => s.setFlowControl d env i setting
  | .condSignal i, s => ((), s.condSignal env i)
  | .tick, s => ((), { s with now := s.now + 1 })

inductive FlowLabel where
  | send (n : Nat) (ucMessageLength : UInt8)
  /-- In the loop, at the wait. -/
  | waiting (n : Nat)
  /-- The receive thread, between two flow control packets. -/
  | receive
  | clock

abbrev FlowCmd (α : Type) : Type := Prog FlowOp FlowOp.Res α

/-- A section has either returned a status or left the send waiting. -/
def continueWait (n : Nat) : Option AntStatus → Option FlowLabel
  | some _ => none
  | none => some (.waiting n)

/-- `ant_tx_message_flowcontrol_wait` up to its first wait. -/
def sendBody (n : Nat) (ucMessageLength : UInt8) : FlowCmd (Option FlowLabel) :=
  .op (.txSection n ucMessageLength) fun status => .ret (continueWait n status)

/-- The end of an iteration of its loop, with the answer of the wait. -/
def wakeBody (n : Nat) (iCondWaitResult : Int) : FlowCmd (Option FlowLabel) :=
  .op (.wakeSection n iCondWaitResult) fun status => .ret (continueWait n status)

def waitBody (n : Nat) : FlowCmd (Option FlowLabel) := .op (.condTimedwait n) (wakeBody n)

/-- `setFlowControl` behind its section. -/
def signalBody (i : Nat) (iRet : Int) : FlowCmd (Option FlowLabel) :=
  if iRet ≠ 0 then .ret none else .op (.condSignal i) fun _ => .ret (some .receive)

def storeBody (packet : Nat × UInt8) : FlowCmd (Option FlowLabel) :=
  .op (.setFlowControl packet.1 packet.2) (signalBody packet.1)

def flowBody : FlowLabel → FlowCmd (Option FlowLabel)
  | .send n ucMessageLength => sendBody n ucMessageLength
  | .waiting n => waitBody n
  | .receive => .op .nextPacket storeBody
  | .clock => .op .tick fun _ => .ret (some .clock)

def isFlowEntry : FlowTid → FlowLabel → Bool
  | .sender n, .send m _ => n = m
  | .receiver, .receive | .clock, .clock => true
  | _, _ => false

/-- Any number of sends on one flow message path, with the receive thread. -/
def flowMachine (d : HciDefines) : Machine FlowOp FlowOp.Res FlowLabel FlowTid FlowShared
    FlowEnv where
  body := flowBody
  entry := isFlowEntry
  ready _ _ _ _ _ := true
  effect _ := flowEffect d
  spawn _ _ _ := none

abbrev FlowThread : Type := Thread FlowOp FlowOp.Res FlowLabel

abbrev FlowConfig : Type := Config FlowOp FlowOp.Res FlowLabel FlowTid FlowShared

def flowInit (info : AntChannelInfo) : FlowConfig := ⟨.init info, fun _ => none⟩

end AntHal
