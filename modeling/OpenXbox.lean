import OpenXbox.Lib.Run
import OpenXbox.Common.MapRun
import OpenXbox.Cpu.WalkAgreement
import OpenXbox.Usb.ControlBound
import OpenXbox.Uart.Coherence
import OpenXbox.Nv2a.PushBuffer
import OpenXbox.Nv2a.Confinement
import OpenXbox.Ohci.TransferBounds
import OpenXbox.Ohci.Layout
import OpenXbox.Ohci.Progress
import OpenXbox.Ohci.ListWalk
import OpenXbox.Ohci.WalkReturns
import OpenXbox.Ohci.FiniteLists
import OpenXbox.Pic.Device
import OpenXbox.Pic.Priority
import OpenXbox.Pic.Acknowledge
import OpenXbox.Pic.Cascade
import OpenXbox.Pic.Termination
import OpenXbox.Pic.InService
import OpenXbox.Pic.Nesting
import OpenXbox.Pic.Operations
import OpenXbox.Pic.DeliveryOrder
import OpenXbox.Pic.CascadeLink
import OpenXbox.Pic.EdgeTriggered
import OpenXbox.Common.FifoContents
import OpenXbox.Uart.Reception
import OpenXbox.Cpu.Interrupts
import OpenXbox.Cpu.StringIo
import OpenXbox.Cpu.VirtualCopy
import OpenXbox.Cpu.RegisterCache
import OpenXbox.Lib.LinkedList
import OpenXbox.Ohci.Frame
import OpenXbox.Ohci.DoneQueue
import OpenXbox.Ohci.Retirements
import OpenXbox.Lib.Cycle
import OpenXbox.Nv2a.Kickoff
import OpenXbox.Lib.BitField
import OpenXbox.Nv2a.Registers
import OpenXbox.Nv2a.Mmio
import OpenXbox.Nv2a.Puller
import OpenXbox.Nv2a.PullerFifo
import OpenXbox.Nv2a.InterruptTree
import OpenXbox.Nv2a.Division
import OpenXbox.Nv2a.SaveRestore
import OpenXbox.Nv2a.StaleReads
import OpenXbox.Lib.LittleEndian
import OpenXbox.Pci.Device
import OpenXbox.Pci.ConfigSpace
import OpenXbox.Ohci.FrameTimer
import OpenXbox.Pci.BaseAddress
import OpenXbox.Smbus.Bus
import OpenXbox.Smbus.Confinement
import OpenXbox.Smbus.Interrupt
import OpenXbox.Gdb.Transport
import OpenXbox.Gdb.Codec
import OpenXbox.Gdb.Packet
import OpenXbox.Gdb.RoundTrip
import OpenXbox.Gdb.Main
import OpenXbox.Gdb.OwnBytes
import OpenXbox.Uart.DataReady
import OpenXbox.Lib.Encoder
import OpenXbox.Usb.Descriptors
import OpenXbox.Usb.Requests
import OpenXbox.Xid.Gamepad
import OpenXbox.Xid.OutputReport
import OpenXbox.Lib.Flags
import OpenXbox.Ohci.RootHub
import OpenXbox.Ohci.AsyncPacket
import OpenXbox.Pic.ReadBack
import OpenXbox.Superio.Device
import OpenXbox.Superio.RegisterFile
import OpenXbox.Ata.Channel
import OpenXbox.Ata.InterruptLine
import OpenXbox.Ata.Ports
import OpenXbox.Ata.Symmetry
import OpenXbox.Nvnet.Device
import OpenXbox.Nvnet.RegisterFile
import OpenXbox.Haxm.Breakpoints
import OpenXbox.Loader.Addresses
import OpenXbox.Lib.RunLength
import OpenXbox.Loader.Logo
import OpenXbox.Loader.LogoRoundTrip
import OpenXbox.Gdb.Stream
import OpenXbox.Gdb.RegisterWrites
import OpenXbox.Usb.Hub
import OpenXbox.Usb.Packet
import OpenXbox.Usb.Ports
import OpenXbox.Ohci.Assertions
import OpenXbox.Ohci.Deliveries
import OpenXbox.Ohci.OutTransfer
import OpenXbox.Ohci.EndlessQueues
import OpenXbox.Ohci.WriteBack
import OpenXbox.Ohci.FrameRemaining
import OpenXbox.Lib.Chunks
import OpenXbox.Usb.ControlIn
import OpenXbox.Lib.LastMatch
import OpenXbox.Usb.Configurations
import OpenXbox.Lib.Utf16
import OpenXbox.Usb.StringDescriptor
import OpenXbox.Uart.CharTimeout
import OpenXbox.Uart.CharTime
import OpenXbox.Cpu.PhysicalMemory
import OpenXbox.Cpu.DescriptorTables
import OpenXbox.Lib.XorFold
import OpenXbox.Nv2a.RamhtHash
import OpenXbox.Pci.BiosMirror
import OpenXbox.Lib.MulDiv
import OpenXbox.Nv2a.PtimerClock
import OpenXbox.Ata.CommandOutcome
import OpenXbox.Ata.DataIn
import OpenXbox.Gdb.GuestMemory
import OpenXbox.Gdb.MemoryRead
import OpenXbox.Gdb.MemoryWrite
import OpenXbox.Nv2a.RegisterFiles
import OpenXbox.Nv2a.PusherErrors
import OpenXbox.Cpu.SegmentLoad
import OpenXbox.Common.BoundedQueue
import OpenXbox.Common.IoVec
import OpenXbox.Common.Muldiv
import OpenXbox.Lib.Ownership
import OpenXbox.Loader.Construction
import OpenXbox.Loader.LoadFailure
import OpenXbox.Loader.LogoFrame
import OpenXbox.Lib.Latch
import OpenXbox.Usb.ControlOut
import OpenXbox.Usb.HubStatus
import OpenXbox.Lib.Parts
import OpenXbox.Machine.PciBus
import OpenXbox.Machine.Ports
import OpenXbox.Machine.System
import OpenXbox.Ohci.Composition
import OpenXbox.Ohci.Registers
import OpenXbox.Smbus.ReadBack
