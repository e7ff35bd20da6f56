import AntHal.Common.Types
import AntHal.Chardev.HciDefines

/-!
The transmit path of ant_native_chardev.c: `ant_tx_message` builds one HCI
packet on the stack and hands it to `write`, with or without flow control.
-/

namespace AntHal

/-- MESG_BROADCAST_DATA_ID and the other ids of the data path. -/
def dataMsgIds : List UInt8 := [0x4E, 0x4F, 0x50, 0x5D, 0x5E, 0x5F, 0x72]

def antCmdTypePacket : UInt8 := 0x0C

def antDataTypePacket : UInt8 := 0x0E

/-- A packet on its way to `write`. -/
structure TxRequest where
  eTxPath : AntChannelType
  /-- eFlowMessagePath of ant_tx_message_flowcontrol_wait, or none for
  ant_tx_message_flowcontrol_none. -/
  eFlowMessagePath : Option AntChannelType
  ucMessageLength : UInt8
  pucTxMessage : Memory

def TxRequest.buffer (r : TxRequest) : List UInt8 :=
  (List.range r.ucMessageLength.toNat).map r.pucTxMessage

section antTxMessage
variable (b : Build)

/-- The header and the message, behind the room for a packet type byte. -/
def fillTxBuffer (bIsData : Bool) (ucLen : UInt8) (pucMesg txBuffer : Memory) : Memory :=
  let pre := b.packetTypeSize
  let withOpcode := match b.hci.opcode with
    | some opcodes => Function.update txBuffer (pre + b.hci.opcodeOffset) opcodes.tx
    | none => txBuffer
  let withChannel := match b.backend with
    | .vfs =>
      if b.hci.channelSize = 1 then
        Function.update withOpcode (pre + b.hci.channelOffset)
          (if bIsData then b.hci.dataChannel else b.hci.commandChannel)
      else withOpcode
    | .btVendor => withOpcode
  let withSize := match b.hci.sizeSize with
    | .one => Function.update withChannel (pre + b.hci.sizeOffset) ucLen
    | .two => storeLE16 withChannel (pre + b.hci.sizeOffset) ucLen.toUInt16
  memcpy withSize (pre + b.hci.headerSize) pucMesg ucLen.toNat

/-- `ant_tx_message` of vfs, after the enabled check. -/
def antTxMessageVfs (ucLen : UInt8) (pucMesg txBuffer : Memory) : TxRequest :=
  let txMessageLength := UInt8.ofNat (ucLen.toNat + b.hci.headerSize)
  let bIsData := b.multipathTx && dataMsgIds.contains (pucMesg antMsgIdOffset)
  let eTxChannel := if b.antDeviceName then .single else if bIsData then .data else .command
  let eFlowChannel := if b.antDeviceName then .single else .command
  { eTxPath := eTxChannel
    eFlowMessagePath := if !b.multipathTx || bIsData then some eFlowChannel else none
    ucMessageLength := txMessageLength
    pucTxMessage := fillTxBuffer b bIsData ucLen pucMesg txBuffer }

/-- `ant_tx_message` of bt-vendor_vfs, after the enabled check. The message id
is read back from the packet, and the packet type byte is written last. -/
def antTxMessageBtVendor (ucLen : UInt8) (pucMesg txBuffer : Memory) : TxRequest :=
  let txMessageLength := UInt8.ofNat (b.packetTypeSize + ucLen.toNat + b.hci.headerSize)
  let filled := fillTxBuffer b false ucLen pucMesg txBuffer
  let bIsData := dataMsgIds.contains
    (filled (b.packetTypeSize + b.hci.dataOffset + antMsgIdOffset))
  let typed := if b.packetTypeSize = 1 then
      Function.update filled 0 (if bIsData then antDataTypePacket else antCmdTypePacket)
    else filled
  let eTxChannel := if b.antDeviceName then .single else if bIsData then .data else .command
  let eFlowChannel := if b.antDeviceName then .single else .command
  { eTxPath := eTxChannel
    eFlowMessagePath :=
      if (b.antDeviceName && b.packetTypeSize == 0) || bIsData then some eFlowChannel else none
    ucMessageLength := txMessageLength
    pucTxMessage := typed }

/-- `ant_tx_message` up to the write: none when the radio is not enabled, which
returns ANT_STATUS_FAILED_BT_NOT_INITIALIZED. The packet is built in `txBuffer`,
whose old contents are arbitrary. -/
def antTxMessage (status : RadioStatus) (ucLen : UInt8) (pucMesg txBuffer : Memory) :
    Option TxRequest :=
  if status ≠ .enabled then none
  else match b.backend with
    | .vfs => some (antTxMessageVfs b ucLen pucMesg txBuffer)
    | .btVendor => some (antTxMessageBtVendor b ucLen pucMesg txBuffer)

end antTxMessage
end AntHal
