import AndroidX86Tv.BootControl.ActiveSlot
import AndroidX86Tv.BootControl.BootConfig
import AndroidX86Tv.BootControl.BootMode
import AndroidX86Tv.BootControl.BoundedReference
import AndroidX86Tv.BootControl.LastMode
import AndroidX86Tv.BootControl.LongerWord
import AndroidX86Tv.BootControl.ModeAndSlot
import AndroidX86Tv.BootControl.Reboots
import AndroidX86Tv.BootControl.Settings
import AndroidX86Tv.BootControl.SlotReference
import AndroidX86Tv.BootControl.SwitchBack
import AndroidX86Tv.Dhcp.AddedOptions
import AndroidX86Tv.Dhcp.AddressRequest
import AndroidX86Tv.Dhcp.Backoff
import AndroidX86Tv.Dhcp.BoundWait
import AndroidX86Tv.Dhcp.Carries
import AndroidX86Tv.Dhcp.Checksum
import AndroidX86Tv.Dhcp.ChecksumChain
import AndroidX86Tv.Dhcp.Client
import AndroidX86Tv.Dhcp.Datagram
import AndroidX86Tv.Dhcp.DefaultRoute
import AndroidX86Tv.Dhcp.DhcpInfo
import AndroidX86Tv.Dhcp.Diagram
import AndroidX86Tv.Dhcp.Exchange
import AndroidX86Tv.Dhcp.FailedConfiguration
import AndroidX86Tv.Dhcp.GatewayRequest
import AndroidX86Tv.Dhcp.Handshake
import AndroidX86Tv.Dhcp.Interface
import AndroidX86Tv.Dhcp.InterfaceUp
import AndroidX86Tv.Dhcp.LeaseEnd
import AndroidX86Tv.Dhcp.LeaseTimers
import AndroidX86Tv.Dhcp.LongLease
import AndroidX86Tv.Dhcp.Message
import AndroidX86Tv.Dhcp.Network
import AndroidX86Tv.Dhcp.OptionBounds
import AndroidX86Tv.Dhcp.OptionWalk
import AndroidX86Tv.Dhcp.OptionsField
import AndroidX86Tv.Dhcp.Pace
import AndroidX86Tv.Dhcp.Program
import AndroidX86Tv.Dhcp.RawUdp
import AndroidX86Tv.Dhcp.Renewal
import AndroidX86Tv.Dhcp.Reply
import AndroidX86Tv.Dhcp.RouterAttributes
import AndroidX86Tv.Dhcp.StaleReplies
import AndroidX86Tv.Dhcp.TransactionId
import AndroidX86Tv.Dhcp.Transition
import AndroidX86Tv.Dhcp.TwoClients
import AndroidX86Tv.Dhcp.TwoWalks
import AndroidX86Tv.Dhcp.Wait
import AndroidX86Tv.Dhcp.ZeroChecksum
import AndroidX86Tv.Graphics.Boot
import AndroidX86Tv.Graphics.Defaults
import AndroidX86Tv.Graphics.InitScript
import AndroidX86Tv.Graphics.Triggers
import AndroidX86Tv.Graphics.UserChoice
import AndroidX86Tv.Lib.Assignment
import AndroidX86Tv.Lib.Commands
import AndroidX86Tv.Lib.Fields
import AndroidX86Tv.Lib.Framing
import AndroidX86Tv.Lib.History
import AndroidX86Tv.Lib.Insertion
import AndroidX86Tv.Lib.KeyedWrites
import AndroidX86Tv.Lib.Memory
import AndroidX86Tv.Lib.OnesComplement
import AndroidX86Tv.Lib.Replacement
import AndroidX86Tv.Lib.Simulation
import AndroidX86Tv.Lib.SmallWords
import AndroidX86Tv.Libinit.Assigned
import AndroidX86Tv.Libinit.Properties
import AndroidX86Tv.TabletMode.Daemon
import AndroidX86Tv.TabletMode.LidSwitch
import AndroidX86Tv.Wacom.ChosenParser
import AndroidX86Tv.Wacom.Drawing
import AndroidX86Tv.Wacom.Events
import AndroidX86Tv.Wacom.Identity
import AndroidX86Tv.Wacom.Line
import AndroidX86Tv.Wacom.Models
import AndroidX86Tv.Wacom.Packets
import AndroidX86Tv.Wacom.Parsers
import AndroidX86Tv.Wacom.Ranges
import AndroidX86Tv.Wacom.Reporting
import AndroidX86Tv.Wacom.Reports
import AndroidX86Tv.Wacom.Resynchronisation
import AndroidX86Tv.Wacom.Serial
import AndroidX86Tv.Wacom.State
import AndroidX86Tv.Wacom.Strokes
import AndroidX86Tv.Wacom.Tablet
import AndroidX86Tv.Wacom.Values
import AndroidX86Tv.Wacom.View
import AndroidX86Tv.Wacom.Wheel
import AndroidX86Tv.Zram
