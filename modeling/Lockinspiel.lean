import Lockinspiel.Lib.Program
import Lockinspiel.Lib.Rows
import Lockinspiel.Lib.Framing
import Lockinspiel.Lib.Runs
import Lockinspiel.Lib.History
import Lockinspiel.Lib.Erase
import Lockinspiel.Lib.Pool
import Lockinspiel.Lib.Slab
import Lockinspiel.Lib.Terminated
import Lockinspiel.Lib.Serde
import Lockinspiel.Jiff
import Lockinspiel.SqlTypes
import Lockinspiel.Intervals
import Lockinspiel.Timestamps
import Lockinspiel.WireValues
import Lockinspiel.Auth
import Lockinspiel.Schema
import Lockinspiel.Statement
import Lockinspiel.Accepted
import Lockinspiel.Routes
import Lockinspiel.Service
import Lockinspiel.Evolves
import Lockinspiel.Histories
import Lockinspiel.Endings
import Lockinspiel.ConnectionPool
import Lockinspiel.TableInvariant
import Lockinspiel.Isolation
import Lockinspiel.TagNames
import Lockinspiel.Tags
import Lockinspiel.SoftDelete
import Lockinspiel.ReadTimeSplits
import Lockinspiel.ConcurrentReads
import Lockinspiel.FailedTimeSplit
import Lockinspiel.TimeSplitAnswers
import Lockinspiel.Shelf
import Lockinspiel.Timesheet
import Lockinspiel.LatestTimer
import Lockinspiel.TimerAnswers
import Lockinspiel.Timers
import Lockinspiel.TimerBodies
import Lockinspiel.UrlResolver
import Lockinspiel.Profiles
import Lockinspiel.UserRoutes
import Lockinspiel.UserService
import Lockinspiel.AvatarKeys
import Lockinspiel.AvatarOrphans
import Lockinspiel.FailedAvatar
import Lockinspiel.UserIsolation
import Lockinspiel.Account
import Lockinspiel.Timesync
import Lockinspiel.Responses
import Lockinspiel.OneResponse
import Lockinspiel.ResponseStream
import Lockinspiel.CompleteResponse
import Lockinspiel.Fragments
import Lockinspiel.Draining
import Lockinspiel.Worker
import Lockinspiel.Connections
import Lockinspiel.TimerComponent
import Lockinspiel.Countdown
import Lockinspiel.TimerDisplay
import Lockinspiel.TimerLifecycle
import Lockinspiel.Telemetry
import Lockinspiel.PathConfigs
import Lockinspiel.IntoPath
import Lockinspiel.Documented
import Lockinspiel.ErrorBody
