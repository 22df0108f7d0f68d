import SensorSimulator.Lib.Bytes
import SensorSimulator.Lib.Lists
import SensorSimulator.Lib.Texts
import SensorSimulator.Lib.Runs
import SensorSimulator.Lib.Streams
import SensorSimulator.Lib.Places
import SensorSimulator.Lib.Gaps
import SensorSimulator.Lib.Links
import SensorSimulator.Lib.Resources
import SensorSimulator.Lib.Network
import SensorSimulator.Lib.Rounding
import SensorSimulator.Lib.Floats
import SensorSimulator.Lib.FloatSums
import SensorSimulator.Lib.Simulation
import SensorSimulator.Lib.Termination
import SensorSimulator.Lib.Stations
import SensorSimulator.Common
import SensorSimulator.Codec
import SensorSimulator.Receive
import SensorSimulator.Log
import SensorSimulator.LogsFiles
import SensorSimulator.StartUp
import SensorSimulator.Client
import SensorSimulator.ClientSends
import SensorSimulator.ClientLoop
import SensorSimulator.ClientRate
import SensorSimulator.ClientMain
import SensorSimulator.Readings
import SensorSimulator.Sensor
import SensorSimulator.Framing
import SensorSimulator.Server.Queues
import SensorSimulator.Server.PrintQueue
import SensorSimulator.Server.Main
import SensorSimulator.Server.State
import SensorSimulator.Server.Exits
import SensorSimulator.Server.Moves
import SensorSimulator.Server.Lanes
import SensorSimulator.Server.Memory
import SensorSimulator.Server.Drain
import SensorSimulator.Server.Totals
import SensorSimulator.Server.Logged
import SensorSimulator.Server.Ledger
import SensorSimulator.Server.Report
import SensorSimulator.Server.Sums
import SensorSimulator.Server.Wake
import SensorSimulator.Server.Stop
import SensorSimulator.Server.TearDown
import SensorSimulator.Server.ShutDown
import SensorSimulator.Server.Serve
import SensorSimulator.Server.ExitCode
import SensorSimulator.LogText
import SensorSimulator.Server.Ready
import SensorSimulator.Server.Refine
import SensorSimulator.EndToEnd
import SensorSimulator.ClientThreads
import SensorSimulator.ClientExits
import SensorSimulator.ClientEnds
import SensorSimulator.Averages
import SensorSimulator.LogsAgree
import SensorSimulator.WholeSystem
import SensorSimulator.Completion
import SensorSimulator.Conservation
