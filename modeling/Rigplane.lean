import Rigplane.Lib.Runs
import Rigplane.Lib.Dict
import Rigplane.ManagedTx.StateSafety
import Rigplane.ManagedTx.EffectLaneSafety
import Rigplane.StateStore.Replay
import Rigplane.StateStore.Deadline
import Rigplane.TxSafety.Readiness
import Rigplane.Transport.OrderedDelivery
import Rigplane.ControlDomain.RoundTrip
import Rigplane.Web.Renderings
import Rigplane.Web.EnvelopeRuns
import Rigplane.Commands.Interference
import Rigplane.Exchange.SlotOwnership
import Rigplane.Civ.TxFamily
import Rigplane.Civ.TrackerSafety
import Rigplane.CommandService.InFlight
import Rigplane.CommandService.PendingTables
import Rigplane.Audio.BusSafety
import Rigplane.Memory.Complete
import Rigplane.SerialCiv.LinkSafety
import Rigplane.SerialCiv.FrameCuts
import Rigplane.WebSocket.Messages
import Rigplane.Tci.Session
import Rigplane.Scope.Bursts
import Rigplane.Cat.RoundTrip
import Rigplane.Audio.SessionSafety
import Rigplane.Audio.LoopHandoff
import Rigplane.Audio.JitterRuns
import Rigplane.Audio.JoiningRuns
import Rigplane.TxController.ControllerSafety
import Rigplane.TxSafety.EffectServiceSafety
import Rigplane.RigctldClient.TransportSafety
import Rigplane.Controller.SessionSafety
import Rigplane.Acquisition.BudgetFit
import Rigplane.TxInterlock.LaneSafety
import Rigplane.Acquisition.MeterCoverage
import Rigplane.Acquisition.Priming
import Rigplane.Transport.Retransmit
import Rigplane.StatePipeline.PathParse
import Rigplane.Poller.QueueOrder
import Rigplane.Poller.EntryCallRuns
import Rigplane.Lifecycle.ConnectRuns
import Rigplane.Acquisition.SchedulerClocks
import Rigplane.Acquisition.DrainSafety
import Rigplane.RigctldClient.Requests
import Rigplane.Rigctld.ConnectionLimits
import Rigplane.Tci.ServerRuns
import Rigplane.Tci.Protocol
