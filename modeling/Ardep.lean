import Ardep.Common.Machine
import Ardep.Common.CellStore
import Ardep.Common.Files
import Ardep.Common.Ledger
import Ardep.Common.Acyclic
import Ardep.Common.ProgRel
import Ardep.Common.Slices
import Ardep.Common.Sharing
import Ardep.Common.Latest
import Ardep.Common.Register
import Ardep.Common.RegFile
import Ardep.Common.Utf8
import Ardep.Common.WordRange
import Ardep.Common.MsgQueue
import Ardep.Common.Mutex
import Ardep.Uds.Err
import Ardep.Uds.Transfer.Model
import Ardep.Uds.Transfer.Invariant
import Ardep.Uds.Transfer.RoundTrip
import Ardep.Uds.Transfer.FileSystem
import Ardep.Uds.Transfer.Start
import Ardep.Uds.Transfer.Handles
import Ardep.Uds.Transfer.FileWrite
import Ardep.Uds.Transfer.FileRoundTrip
import Ardep.Uds.Transfer.Runner
import Ardep.Uds.Transfer.Places
import Ardep.Uds.Transfer.Range
import Ardep.Uds.Transfer.Rejected
import Ardep.Uds.Transfer.Instances
import Ardep.Uds.Dispatch.Model
import Ardep.Uds.Dispatch.Order
import Ardep.Uds.Dispatch.Relate
import Ardep.Uds.Dispatch.DataIdentifier
import Ardep.Uds.Dispatch.Keyed
import Ardep.Uds.Dynamic.Model
import Ardep.Uds.Dynamic.Invariant
import Ardep.Uds.Dynamic.Define
import Ardep.Uds.Dynamic.Clear
import Ardep.Uds.Dynamic.Failure
import Ardep.Uds.Dynamic.Definition
import Ardep.Uds.Dynamic.Registry
import Ardep.Uds.Read.Model
import Ardep.Uds.Read.Events
import Ardep.Uds.Read.Termination
import Ardep.Uds.Read.Slices
import Ardep.Uds.Read.Nested
import Ardep.Uds.Read.Narrowing
import Ardep.Uds.Memory.Check
import Ardep.Uds.Memory.Store
import Ardep.Uds.Link.Model
import Ardep.Uds.Link.Walk
import Ardep.Uds.Link.Transition
import Ardep.Uds.Link.Session
import Ardep.Loader.Erase
import Ardep.Loader.Switch
import Ardep.Loader.Boot
import Ardep.Legacy.Model
import Ardep.Legacy.Server
import Ardep.Legacy.Update
import Ardep.Legacy.Client
import Ardep.Lin.Model
import Ardep.Lin.Bridge
import Ardep.Lin.Format
import Ardep.Lin.Commander
import Ardep.Lin.Registry
import Ardep.Lin.Scheduler
import Ardep.Lin.Filters
import Ardep.Can.Router
import Ardep.Can.Gateway
import Ardep.Iso14229.Model
import Ardep.Iso14229.Inject
import Ardep.Iso14229.Thread
import Ardep.Iso14229.ThreadStop
import Ardep.PowerIo.Model
import Ardep.PowerIo.Outputs
import Ardep.PowerIo.Interrupts
import Ardep.PowerIo.ConfigWrite
import Ardep.PowerIo.Reentry
import Ardep.PowerIo.Failure
import Ardep.PowerIo.Emulator
import Ardep.HvShield.Registers
import Ardep.HvShield.Startup
import Ardep.BusSample.Model
import Ardep.BusSample.Run
import Ardep.BusSample.Progress
import Ardep.Gearshift.Address
import Ardep.HvShield.Gpio
import Ardep.CanLog.RoundTrip
import Ardep.CanLog.Boards
import Ardep.UdsSample.Routine
