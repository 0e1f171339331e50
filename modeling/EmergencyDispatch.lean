import EmergencyDispatch.Assignment
import EmergencyDispatch.Storing
import EmergencyDispatch.WorldEffects
import EmergencyDispatch.Pausing
import EmergencyDispatch.Endings
import EmergencyDispatch.Borders
import EmergencyDispatch.Locking
import EmergencyDispatch.Accounting
import EmergencyDispatch.Completion
import EmergencyDispatch.DispatchOrder
import EmergencyDispatch.LoggerProtocol
import EmergencyDispatch.Ticks
import EmergencyDispatch.WakeUps
import EmergencyDispatch.LinkedQueueRefinement
import EmergencyDispatch.Countdowns
import EmergencyDispatch.Requesting
import EmergencyDispatch.SearchOptimality
import EmergencyDispatch.FailedSearch
import EmergencyDispatch.Strides
import EmergencyDispatch.Diagonals
import EmergencyDispatch.Missions
import EmergencyDispatch.MissionRuns
import EmergencyDispatch.Departures
import EmergencyDispatch.LifeCycle
import EmergencyDispatch.Promotions
import EmergencyDispatch.Parsers.RequestNames
import EmergencyDispatch.Parsers.RequestArrays
import EmergencyDispatch.RescuerTypes
import EmergencyDispatch.WaitingTick
import EmergencyDispatch.PriorityTable
import EmergencyDispatch.Parsers.EnvSettings
import EmergencyDispatch.Transport
import EmergencyDispatch.Startup
import EmergencyDispatch.JsonVisualizer
import EmergencyDispatch.MessageQueue
import EmergencyDispatch.Shutdown
import EmergencyDispatch.Report
import EmergencyDispatch.PositionsDump
import EmergencyDispatch.RequestsInOrder
import EmergencyDispatch.PromotionLevels
import EmergencyDispatch.Preemptions
import EmergencyDispatch.LogIds
import EmergencyDispatch.LogNames
import EmergencyDispatch.HandshakeSafety
import EmergencyDispatch.AsciiMap
