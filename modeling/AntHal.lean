import AntHal.Chardev.RoundTrip
import AntHal.Chardev.StatusTruth
import AntHal.Chardev.ResetTruth
import AntHal.Chardev.LockOrder
import AntHal.Chardev.LiveReceiver
import AntHal.Chardev.Sessions
import AntHal.Chardev.FlowGo
import AntHal.Bluez.LiveReceiver
import AntHal.Bluez.Observers
import AntHal.Chardev.MultiPacket
import AntHal.Chardev.WholeFrame
import AntHal.Chardev.StaleGo
import AntHal.Bluez.JoinWaits
import AntHal.Bluez.Transition
import AntHal.Bluez.DisableWindow
import AntHal.Concurrency.Typestate
import AntHal.Bluez.Wired
import AntHal.Bluez.CommandComplete
import AntHal.Bluez.PacketFormats
import AntHal.Chardev.Snapshot
import AntHal.Chardev.Descriptors
import AntHal.Chardev.BufferBounds
import AntHal.Chardev.RemainderMove
import AntHal.Chardev.Opcodes
import AntHal.Common.JAntNative
import AntHal.Chardev.ResendPointer
import AntHal.Chardev.VendorPower
import AntHal.Chardev.ThreadHandles
import AntHal.Chardev.Progress
import AntHal.Chardev.Resetting
import AntHal.Chardev.SingleReceiver
import AntHal.Bluez.Progress
import AntHal.Bluez.SingleReceiver
import AntHal.Chardev.ShutdownSignal
import AntHal.Bluez.Sockets
import AntHal.Common.PacketPath
