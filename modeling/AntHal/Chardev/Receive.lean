import AntHal.Chardev.HciDefines

/-!
The receive path of ant_rx_chardev.c: `readChannelMsg` and `setFlowControl`.

Both back ends share this code. The buffer of a channel is a file-level array,
so a call starts with what earlier calls have left there. The memory behind the
array is arbitrary; the source can look at it for short frames near the end.
-/

namespace AntHal

/-- One row of aucRxBuffer. -/
structure RxBuffer where
  bytes : List UInt8
  size : bytes.length = antHciMaxMsgSize

namespace RxBuffer

def zero : RxBuffer := ⟨List.replicate antHciMaxMsgSize 0, List.length_replicate⟩

/-- The byte at an index; behind the array lies `beyond`. -/
def get (b : RxBuffer) (beyond : Nat → UInt8) (i : Nat) : UInt8 :=
  b.bytes.getD i (beyond i)

def slice (b : RxBuffer) (beyond : Nat → UInt8) (off n : Nat) : List UInt8 :=
  (List.range n).map fun i => b.get beyond (off + i)

theorem length_slice (b : RxBuffer) (beyond : Nat → UInt8) (off n : Nat) :
    (b.slice beyond off n).length = n := by
  simp only [slice, List.length_map, List.length_range]

theorem getD_slice (b : RxBuffer) (beyond : Nat → UInt8) (off : Nat) {n i : Nat}
    (hi : i < n) (x : UInt8) : (b.slice beyond off n).getD i x = b.get beyond (off + i) := by
  rw [List.getD_eq_getElem _ _ (by rwa [length_slice])]
  simp only [slice, List.getElem_map, List.getElem_range]

theorem slice_append (b : RxBuffer) (beyond : Nat → UInt8) (off m n : Nat) :
    b.slice beyond off (m + n) = b.slice beyond off m ++ b.slice beyond (off + m) n := by
  simp only [slice, List.range_add, List.map_append, List.map_map]
  congr 1
  refine List.map_congr_left fun i _ => ?_
  simp only [Function.comp_apply, Nat.add_assoc]

theorem take_slice (b : RxBuffer) (beyond : Nat → UInt8) (off : Nat) {m n : Nat}
    (h : m ≤ n) : (b.slice beyond off n).take m = b.slice beyond off m := by
  obtain ⟨k, rfl⟩ := Nat.exists_eq_add_of_le h
  rw [slice_append]
  conv => lhs; arg 1; rw [← length_slice b beyond off m]
  rw [List.take_left]

/-- Write `data` at `off`, inside the array. -/
def store (b : RxBuffer) (off : Nat) (data : List UInt8) : RxBuffer where
  bytes := b.bytes.take off ++ data.take (antHciMaxMsgSize - off) ++
    b.bytes.drop (off + data.length)
  size := by
    have := b.size
    simp only [List.length_append, List.length_take, List.length_drop]
    omega

end RxBuffer

/-- The reassembly state of a channel, kept between calls. -/
structure RxState where
  aucRxBuffer : RxBuffer
  iRxBufferLength : Nat

def RxState.init : RxState := ⟨.zero, 0⟩

structure AntChannelInfo where
  iFd : Int
  /-- Whether fnRxCallback is set. -/
  fnRxCallback : Bool
  ucFlowControlResp : UInt8
  ucResendMessageLength : UInt8

/-- `read` as the retry loop sees it: the first answer other than EAGAIN. -/
inductive ReadResult where
  | data (bytes : List UInt8)
  | enodev
  | enxio
  | otherError (errno : Nat)

/-- What the outside decides during one call of `readChannelMsg`. -/
structure ReadEnv where
  result : ReadResult
  beyond : Nat → UInt8
  /-- The answer of pthread_mutex_lock for the frame at an offset. -/
  flowControlLock : Nat → Nat

/-- Where a complete frame goes. -/
inductive Handling where
  | flowControl (ucFlowSetting : UInt8)
  | keepAliveResponse
  | rxCallback
  | rxCallbackNull
  deriving DecidableEq

inductive RxAction where
  | frame (iHciDataSize : Nat) (msg : List UInt8) (handling : Handling)
  | commandComplete
  | resend (ucResendMessageLength : UInt8)
  | resendCancelled
  deriving DecidableEq

/-- The size and the payload of the frame an action dispatches. -/
def RxAction.frame? : RxAction → Option (Nat × List UInt8)
  | .frame n msg _ => some (n, msg)
  | _ => none

/-- What a call of `readChannelMsg` leaves behind. -/
structure ReadReport where
  rx : RxState
  info : AntChannelInfo
  /-- The bytes that `read` has put into the buffer. -/
  received : List UInt8
  actions : List RxAction
  iRet : Int

def ReadReport.dispatch (a : RxAction) (r : ReadReport) : ReadReport :=
  { r with actions := a :: r.actions }

def keepAliveResp : List UInt8 := [0x03, 0x40, 0x00, 0x00, 0x28]

def setFlowControl (iMutexResult : Nat) (info : AntChannelInfo) (ucFlowSetting : UInt8) :
    Int × AntChannelInfo :=
  if iMutexResult ≠ 0 then (-1, info)
  else (0, { info with ucFlowControlResp := ucFlowSetting })

section readChannelMsg
variable (d : HciDefines) (env : ReadEnv)

/-- The test under `#ifdef ANT_MESG_FLOW_CONTROL`. -/
def isFlowControlMsg (id : UInt8) : Bool :=
  match d.flowControl with
  | some flowControl => id == flowControl
  | none => false

/-- What the loop does with the complete frame whose data starts at `msg`. -/
def classify (b : RxBuffer) (info : AntChannelInfo) (msg : Nat) : Handling :=
  if isFlowControlMsg d (b.get env.beyond (msg + antMsgIdOffset)) then
    .flowControl (b.get env.beyond (msg + antMsgDataOffset))
  else if b.slice env.beyond msg keepAliveResp.length == keepAliveResp then .keepAliveResponse
  else if info.fnRxCallback then .rxCallback
  else .rxCallbackNull

/-- Only a flow control packet touches the channel, and only it can fail. -/
def Handling.apply (iMutexResult : Nat) (info : AntChannelInfo) :
    Handling → Int × AntChannelInfo
  | .flowControl ucFlowSetting => setFlowControl iMutexResult info ucFlowSetting
  | .keepAliveResponse | .rxCallback | .rxCallbackNull => (0, info)

/-- The loop over the packets of one buffer. The fuel bounds the iterations,
each of which moves the offset forward. -/
def frameLoop (iRxLenRead : Nat) : Nat → Nat → RxState → AntChannelInfo → ReadReport
  | 0, _, rx, info => ⟨rx, info, [], [], 0⟩
  | fuel + 1, iCurrentHciPacketOffset, rx, info =>
    if iCurrentHciPacketOffset < iRxLenRead then
      let iHciDataSize :=
        (rx.aucRxBuffer.get env.beyond (iCurrentHciPacketOffset + d.sizeOffset)).toNat
      let next := iCurrentHciPacketOffset + d.headerSize + d.footerSize + iHciDataSize
      if iHciDataSize + d.headerSize + d.footerSize + iCurrentHciPacketOffset > iRxLenRead then
        -- Not a whole packet: the increment still leaves the loop.
        let remainder := iRxLenRead - iCurrentHciPacketOffset
        let moved := rx.aucRxBuffer.store 0
          (rx.aucRxBuffer.slice env.beyond iCurrentHciPacketOffset remainder)
        frameLoop iRxLenRead fuel next ⟨moved, remainder⟩ info
      else
        let msg := iCurrentHciPacketOffset + d.dataOffset
        let handling := classify d env rx.aucRxBuffer info msg
        let handled := handling.apply (env.flowControlLock iCurrentHciPacketOffset) info
        let action :=
          .frame iHciDataSize (rx.aucRxBuffer.slice env.beyond msg iHciDataSize) handling
        if handled.1 ≠ 0 then ⟨rx, handled.2, [], [action], -1⟩
        else (frameLoop iRxLenRead fuel next rx handled.2).dispatch action
    else ⟨rx, info, [], [], 0⟩

/-- The part of `readChannelMsg` that runs once a full packet has arrived. -/
def handlePackets (iRxLenRead : Nat) (rx : RxState) (info : AntChannelInfo) : ReadReport :=
  match d.opcode with
  | none => frameLoop d env iRxLenRead iRxLenRead 0 rx info
  | some opcodes =>
    let opcode := rx.aucRxBuffer.get env.beyond d.opcodeOffset
    if opcodes.commandComplete == opcode then
      let set := setFlowControl (env.flowControlLock 0) info d.flowGo
      ⟨rx, set.2, [], [.commandComplete], if set.1 ≠ 0 then -1 else 0⟩
    else if opcodes.flowOn == opcode then
      if d.flowResend then
        if info.ucResendMessageLength > 0 then
          ⟨rx, info, [], [.resend info.ucResendMessageLength], 0⟩
        else ⟨rx, info, [], [.resendCancelled], 0⟩
      else ⟨rx, info, [], [], 0⟩
    else if opcodes.antEvent == opcode then frameLoop d env iRxLenRead iRxLenRead 0 rx info
    else ⟨rx, info, [], [], 0⟩

def readChannelMsg (rx : RxState) (info : AntChannelInfo) : ReadReport :=
  match env.result with
  | .data bytes =>
    -- read returns at most the room that it is offered
    let chunk := bytes.take (antHciMaxMsgSize - rx.iRxBufferLength)
    let buffer := rx.aucRxBuffer.store rx.iRxBufferLength chunk
    let iRxLenRead := chunk.length + rx.iRxBufferLength
    if iRxLenRead <
        (buffer.get env.beyond d.sizeOffset).toNat + d.headerSize + d.footerSize then
      ⟨⟨buffer, iRxLenRead⟩, info, chunk, [], 0⟩
    else { handlePackets d env iRxLenRead ⟨buffer, 0⟩ info with received := chunk }
  | .enodev | .enxio | .otherError _ => ⟨rx, info, [], [], -1⟩

end readChannelMsg
end AntHal
