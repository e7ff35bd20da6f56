import AntHal.Bluez.Lifecycle

/-!
`ant_tx_message` of ant_native_hci.c with the functions of ant_tx.c.

Every attempt of a loop is a control label that carries the local variables:
one call of writev, of poll, or of read, with the decisions behind it.
-/

namespace AntHal.Bluez

open Concurrency

/-- The local variables of the send loop. -/
structure Sending where
  pucMesg : List UInt8
  txSocket : Int
  /-- 0 if the clock failed. -/
  endTime : Nat
  commandWriteFailRetries : Nat
  status : AntStatus
  deriving DecidableEq

/-- The points at which a thread goes on after a jump. -/
inductive Label where
  | enableRadio
  | disableRadio
  | radioEnabledStatus
  | txMessage (pucMesg : List UInt8)
  /-- One attempt of the write loop of `write_data`. -/
  | txWrite (tx : Sending)
  /-- One attempt of `wait_for_message`. -/
  | txWait (tx : Sending)
  /-- One attempt of the read of `get_command_complete_result`. -/
  | txRead (tx : Sending)
  | txClose (tx : Sending)
  /-- The receive thread before its loop. -/
  | rxStart
  /-- The guard of the loop. -/
  | rxLoop (rxSocket : Int)
  | rxPoll (rxSocket : Int)
  | rxRead (rxSocket : Int)
  /-- The source's label `close`. -/
  | rxClose (rxSocket : Int)
  deriving DecidableEq

def maxRetriesWriteFail : Nat := 10
def maxRetryTimeSecs : Nat := 10

def antOpenTxTransport : Cmd Int := do
  let socket ← createHciSock
  if socket < 0 then return socket
  else
    setCmdSocket socket
    let ret ← setsockopt socket
    if ret < 0 then
      close socket
      return -1
    else return socket

def txEndTime : Option Nat → Nat
  | some startTime => startTime + maxRetryTimeSecs
  | none => 0

section txMessage
variable (b : Build)

/-- `ant_tx_message` with txLock: without an enabled radio nothing is sent. -/
def beginSending (pucMesg : List UInt8) (status : RadioStatus) : Cmd (Option Label) :=
  if status ≠ .enabled then do
    mutexUnlock .txLock
    funcEnd .antTxMessage (.status .failedBtNotInitialized)
    return none
  else do
    let txSocket ← antOpenTxTransport
    if txSocket < 0 then
      mutexUnlock .txLock
      funcEnd .antTxMessage (.status .failed)
      return none
    else
      let startTime ← time
      return some (.txWrite ⟨pucMesg, txSocket, txEndTime startTime, 0, .failed⟩)

/-- `ant_tx_message` up to the send loop. -/
def antTxMessage (pucMesg : List UInt8) : Cmd (Option Label) := do
  funcStart .antTxMessage
  let lockResult ← mutexLock .txLock
  if lockResult ≠ 0 then
    funcEnd .antTxMessage (.status .failed)
    return none
  else
    let status ← getAndSetRadioStatus b
    beginSending pucMesg status

/-- The bytes that `write_data` passes to writev. -/
def writeDataBytes (pucMesg : List UInt8) : List UInt8 :=
  createCommandHeader b.board (UInt8.ofNat pucMesg.length) ++ pucMesg

/-- One attempt of `write_data`. A failed write gives up the message. -/
def txWrite (tx : Sending) : Cmd (Option Label) := do
  let socket ← getCmdSocket
  if socket < 0 then return some (.txClose { tx with status := .failed })
  else
    let bytesWritten ← writev socket (writeDataBytes b tx.pucMesg)
    return some <| match bytesWritten with
      | .again => .txWrite tx
      | .error => .txClose { tx with status := .failed }
      | .ok n =>
        if n < (writeDataBytes b tx.pucMesg).length then .txClose { tx with status := .failed }
        else .txWait tx

/-- One attempt of `wait_for_message`. After an error or a timeout the status is
that of the last packet. -/
def txWait (tx : Sending) : Cmd (Option Label) := do
  let n ← poll tx.txSocket
  return some <| match n with
    | .again => .txWait tx
    | .error => .txClose tx
    | .ok n => if n = 0 then .txClose tx else .txRead tx

/-- The switch over the status of a Command Complete. -/
def handleCommandComplete (tx : Sending) : Cmd (Option Label) :=
  match tx.status with
  | .noValueAvailable => return some (.txWait tx)
  | .commandWriteFailed =>
    let retries := tx.commandWriteFailRetries + 1
    if retries < maxRetriesWriteFail then
      return some (.txWrite { tx with commandWriteFailRetries := retries })
    else return some (.txClose { tx with commandWriteFailRetries := retries })
  | .transportUnspecifiedError => do
    nanosleep
    let currentTime ← time
    match currentTime with
    | some now => return some (if now < tx.endTime then .txWrite tx else .txClose tx)
    | none => return some (.txClose tx)
  | _ => return some (.txClose tx)

def txRead (tx : Sending) : Cmd (Option Label) := do
  let packet ← read tx.txSocket
  match packet with
  | .again => return some (.txRead tx)
  | .error => handleCommandComplete { tx with status := .failed }
  | .ok (len, buf) =>
    handleCommandComplete { tx with status := commandCompleteStatus b.board buf len }

def antCloseTxTransport (socket : Int) : Cmd Unit :=
  if 0 < socket then close socket else return ()

def txClose (tx : Sending) : Cmd (Option Label) := do
  antCloseTxTransport tx.txSocket
  mutexUnlock .txLock
  funcEnd .antTxMessage (.status tx.status)
  return none

end txMessage
end AntHal.Bluez
