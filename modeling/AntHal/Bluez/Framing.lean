import AntHal.Common.Types

/-!
The HCI packets of the BlueZ back end: ant_framing.h, and the packet check of
`get_command_complete_result` in ant_tx.c.

HCI_TYPE_LEN, HCI_EVENT_HDR_SIZE, the packet types and the event codes are those
of the Bluetooth headers.
-/

namespace AntHal.Bluez

/-- BOARD_ANT_DEVICE_WL12XX or BOARD_ANT_DEVICE_BCM433X. -/
inductive Board where
  | wl12xx
  | bcm433x
  deriving DecidableEq

/-- What the back end is compiled for. -/
structure Build where
  board : Board
  useExternalPowerLibrary : Bool

section constants

def hciCommandPkt : UInt8 := 0x01
def hciEventPkt : UInt8 := 0x04
def evtCmdComplete : UInt8 := 0x0E
def evtVendor : UInt8 := 0xFF
def hciUnspecifiedError : UInt8 := 0x1F
def hciMaxEventSize : Nat := 260
def hciEventHeaderOverhead : Nat := 3
def commandIdPadding : UInt8 := 0xFF
/-- The size of hci_command_complete_packet_t. -/
def commandCompletePacketSize : Nat := 7

namespace Board

def antCommandOpcode : Board → UInt16
  | wl12xx => 0xFDD1
  | bcm433x => 0xFCEC

def antEventVendorCode : Board → UInt16
  | wl12xx => 0x0500
  | bcm433x => 0x2D

def hciCommandVendorHdrSize : Board → UInt8
  | wl12xx => 2
  | bcm433x => 1

def hciEventVendorHdrSize : Board → Nat
  | wl12xx => 4
  | bcm433x => 2

def hciEventTotalOverhead (board : Board) : Nat :=
  hciEventHeaderOverhead + board.hciEventVendorHdrSize

end Board
end constants

/-- A 16-bit field of a packet, little endian. -/
def le16 (v : UInt16) : List UInt8 := [v.toUInt8, (v >>> 8).toUInt8]

/-- `create_command_header`; the length parameter is a byte. -/
def createCommandHeader (board : Board) (antMessageLen : UInt8) : List UInt8 :=
  hciCommandPkt :: le16 board.antCommandOpcode ++
    [antMessageLen + board.hciCommandVendorHdrSize] ++
    match board with
    | .wl12xx => le16 antMessageLen.toUInt16
    | .bcm433x => [commandIdPadding]

/-- `validate_hci_event_vendor`: 0 or -1. -/
def validateHciEventVendor (board : Board) (packet : Memory) (packetLen : Int) : Int :=
  let vendorCode := match board with
    | .wl12xx => leToHost16 packet 3
    | .bcm433x => (packet 3).toUInt16
  if vendorCode ≠ board.antEventVendorCode then -1
  else match board with
    | .wl12xx =>
      if packetLen ≠ (leToHost16 packet 5).toNat + board.hciEventTotalOverhead then -1 else 0
    | .bcm433x => 0

/-- `validate_hci_event_packet`: the payload length or -1. -/
def validateHciEventPacket (board : Board) (packet : Memory) (packetLen : Int) : Int :=
  if packetLen < board.hciEventTotalOverhead then -1
  else if packet 0 ≠ hciEventPkt then -1
  else if packet 1 ≠ evtVendor then -1
  else if packetLen ≠ (packet 2).toNat + hciEventHeaderOverhead then -1
  else if validateHciEventVendor board packet packetLen = -1 then -1
  else packetLen - board.hciEventTotalOverhead

/-- The status that `get_command_complete_result` finds in a packet it has read. -/
def commandCompleteStatus (board : Board) (packet : Memory) (len : Int) : AntStatus :=
  if len ≠ commandCompletePacketSize then .failed
  else if packet 0 ≠ hciEventPkt then .noValueAvailable
  else if packet 1 ≠ evtCmdComplete then .noValueAvailable
  else if leToHost16 packet 4 ≠ board.antCommandOpcode then .noValueAvailable
  else if packet 6 = 0 then .success
  else if packet 6 = hciUnspecifiedError then .transportUnspecifiedError
  else .commandWriteFailed

end AntHal.Bluez
