import AntHal.Framing.Stream
import Mathlib.Data.List.GetD

/-!
Build-time constants of the character-device back ends.

The sizes and offsets follow ant_hci_defines.h; the values that a driver header
sets are fields of `HciDefines`. Sizes that the sources reject with `#error`
cannot be written down.
-/

namespace AntHal

/-- ANT_HCI_SIZE_SIZE is 1 or 2, every other value is a compile error. -/
inductive SizeField where
  | one
  | two
  deriving DecidableEq

def SizeField.bytes : SizeField → Nat
  | .one => 1
  | .two => 2

/-- The opcodes of a driver with ANT_HCI_OPCODE_SIZE 1. -/
structure HciOpcodes where
  commandComplete : UInt8
  flowOn : UInt8
  antEvent : UInt8
  tx : UInt8

/-- What ant_driver_defines.h fixes for one chip. -/
structure HciDefines where
  opcode : Option HciOpcodes
  channelSize : Nat
  /-- ANT_HCI_DATA_CHANNEL and ANT_HCI_COMMAND_CHANNEL, for a channel byte. -/
  dataChannel : UInt8
  commandChannel : UInt8
  sizeSize : SizeField
  syncSize : Nat
  checksumSize : Nat
  /-- ANT_MESG_FLOW_CONTROL, when the chip sends flow control messages. -/
  flowControl : Option UInt8
  flowGo : UInt8
  flowStop : UInt8
  /-- ANT_FLOW_RESEND is defined. -/
  flowResend : Bool

namespace HciDefines

variable (d : HciDefines)

def opcodeSize : Nat := if d.opcode.isSome then 1 else 0

def headerSize : Nat := d.opcodeSize + d.channelSize + d.sizeSize.bytes + d.syncSize

def footerSize : Nat := d.checksumSize

def opcodeOffset (_ : HciDefines) : Nat := 0

def channelOffset : Nat := d.opcodeOffset + d.opcodeSize

def sizeOffset : Nat := d.channelOffset + d.channelSize

def dataOffset : Nat := d.headerSize

/-- The framing of every driver header of the repository, with a size field of
one byte there. -/
def plain (size : SizeField) : HciDefines where
  opcode := none
  channelSize := 0
  dataChannel := 0
  commandChannel := 0
  sizeSize := size
  syncSize := 0
  checksumSize := 0
  flowControl := some 0xC9
  flowGo := 0x00
  flowStop := 0x80
  flowResend := false

def shipped : HciDefines := plain .one

theorem sizeOffset_lt_headerSize : d.sizeOffset < d.headerSize := by
  have : 0 < d.sizeSize.bytes := by cases d.sizeSize <;> decide
  simp only [sizeOffset, channelOffset, opcodeOffset, headerSize]
  omega

/-- The frames of the receive path: the size byte counts the payload. -/
def format : Framing.Format UInt8 where
  header := d.headerSize
  length xs := d.headerSize + d.footerSize + (xs.getD d.sizeOffset 0).toNat
  header_pos := Nat.zero_lt_of_lt d.sizeOffset_lt_headerSize
  header_le _ := by omega
  length_append xs ys h := by
    have := Nat.lt_of_lt_of_le d.sizeOffset_lt_headerSize h
    rw [List.getD_append _ _ _ _ this]

@[simp] theorem plain_sizeOffset (size : SizeField) : (plain size).sizeOffset = 0 := rfl

@[simp] theorem plain_footerSize (size : SizeField) : (plain size).footerSize = 0 := rfl

@[simp] theorem plain_headerSize (size : SizeField) :
    (plain size).headerSize = size.bytes := by
  simp [headerSize, plain, opcodeSize]

@[simp] theorem plain_dataOffset (size : SizeField) :
    (plain size).dataOffset = size.bytes := plain_headerSize size

end HciDefines

def antHciMaxMsgSize : Nat := 260

def antMsgIdOffset : Nat := 1

def antMsgDataOffset : Nat := 2

/-- The transport paths to the chip: one, or separate data and command paths. -/
inductive AntChannelType where
  | single
  | data
  | command
  deriving DecidableEq

/-- The two character-device back ends. -/
inductive Backend where
  | vfs
  | btVendor
  deriving DecidableEq

/-- One way to build a character-device back end. -/
structure Build where
  backend : Backend
  hci : HciDefines
  /-- ANT_DEVICE_NAME is defined: a single transport path. -/
  antDeviceName : Bool
  /-- ANT_IOCTL_RESET is defined. -/
  antIoctlReset : Bool
  /-- HCI_PACKET_TYPE_SIZE is 1; only bt-vendor_vfs knows this prefix. -/
  hciPacketType : Bool

namespace Build

/-- vfs with separate command and data paths, without hard reset. -/
def smd : Build := ⟨.vfs, .shipped, false, false, false⟩

/-- The same with ANT_IOCTL_RESET. -/
def cg29xx : Build := ⟨.vfs, .shipped, false, true, false⟩

/-- bt-vendor_vfs over one UART. -/
def uart : Build := ⟨.btVendor, .shipped, true, false, true⟩

variable (b : Build)

/-- The values of ant_channel_type below NUM_ANT_CHANNELS, in order. -/
def channels : List AntChannelType := if b.antDeviceName then [.single] else [.data, .command]

def packetTypeSize : Nat :=
  match b.backend with
  | .vfs => 0
  | .btVendor => if b.hciPacketType then 1 else 0

theorem packetTypeSize_le : b.packetTypeSize ≤ 1 := by
  unfold packetTypeSize
  split
  · exact Nat.zero_le 1
  · split <;> decide

/-- MULTIPATH_TX of the vfs back end. -/
def multipathTx : Bool := decide (0 < b.hci.channelSize) || !b.antDeviceName

theorem channels_nodup : b.channels.Nodup := by
  unfold channels
  split <;> decide

theorem channels_ne_nil : b.channels ≠ [] := by
  unfold channels
  split <;> simp

end Build
end AntHal
