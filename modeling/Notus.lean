import Notus.Core.Transducer
import Notus.Chrono
import Notus.Core.Fixed
import Notus.UpTime
import Notus.Stopwatch
import Notus.Stopwatch.Drift
import Notus.Stopwatch.Display
import Notus.Stopwatch.Origin
import Notus.Stopwatch.Ticks
import Notus.Stopwatch.Envelope
import Notus.Core.Decimal
import Notus.Errors
import Notus.Errors.Timestamp
import Notus.Core.Separator
import Notus.Errors.Category
import Notus.Errors.LogLine
import Notus.Core.Machine
import Notus.Core.Ghost
import Notus.Zephyr.Gpio
import Notus.Zephyr.Timer
import Notus.Button
import Notus.Button.Phase
import Notus.Button.PressCycle
import Notus.Button.Lifetime
import Notus.Button.Readiness
import Notus.Button.Trace
import Notus.Core.Simulation
import Notus.Zephyr.GpioPort
import Notus.Button.Panel
import Notus.Button.Alone
import Notus.Button.Sharing
import Notus.Zephyr.Adc
import Notus.LoadCell
import Notus.LoadCell.Order
import Notus.Core.Units
import Notus.LoadCell.Resolution
import Notus.TypeState
import Notus.TypeState.Matching
import Notus.Core.Bounded
import Notus.Core.Slots
import Notus.FileSystem
import Notus.FileSystem.Names
import Notus.FileSystem.Bytes
import Notus.FileSystem.Balance
import Notus.Core.Output
import Notus.FileSystem.Store
import Notus.ActiveObject
import Notus.ActiveObject.Conservation
import Notus.Core.Exchange
import Notus.ActiveObject.Result
import Notus.ActiveObject.Answer
import Notus.ActiveObject2
import Notus.ActiveObject2.Timeout
import Notus.ActiveObject2.Leftover
import Notus.ActiveObject2.Order
import Notus.ActiveObject2.Lifetime
import Notus.ZBusWrapperWithReply
import Notus.ZBusWrapperWithReply.Currency
import Notus.ZBusWrapperWithReply.Delivery
import Notus.ZBusWrapperWithReply.Order
import Notus.ZBusWrapperWithReply.Progress
import Notus.CustomErrors
import Notus.CustomErrors.Erasure
import Notus.CustomErrors.Domains
import Notus.CustomErrors.Equality
import Notus.CustomErrors.Meaning
import Notus.Core.SystemError
import Notus.ErrorCodes
import Notus.ErrorCodes.Queries
import Notus.ErrorCodes.Messages
import Notus.Core.Lossy
import Notus.ZBusObservers
import Notus.ZBusObservers.Subscriber
import Notus.ZBusObservers.Copies
import Notus.ZBusStandard
import Notus.ZBusStandard.Events
import Notus.Display
import Notus.Core.Loop
import Notus.Zephyr.FileSeek
import Notus.LittlefsSample
import Notus.LittlefsSample.Pattern
import Notus.LittlefsSample.Boots
