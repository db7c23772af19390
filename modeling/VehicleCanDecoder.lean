import VehicleCanDecoder.Lib.UnorderedMap
import VehicleCanDecoder.Lib.Machine
import VehicleCanDecoder.Lib.Hoare
import VehicleCanDecoder.Lib.Objects
import VehicleCanDecoder.Lib.Ownership
import VehicleCanDecoder.Lib.Cdr
import VehicleCanDecoder.Lib.FileTree
import VehicleCanDecoder.Lib.Layers
import VehicleCanDecoder.Cpp
import VehicleCanDecoder.Messages
import VehicleCanDecoder.Router
import VehicleCanDecoder.Transformer
import VehicleCanDecoder.Decoder
import VehicleCanDecoder.Lifecycle
import VehicleCanDecoder.CanReader
import VehicleCanDecoder.Descriptors
import VehicleCanDecoder.Pipeline
import VehicleCanDecoder.Timeouts
import VehicleCanDecoder.Parameters
import VehicleCanDecoder.Load
import VehicleCanDecoder.Configured
import VehicleCanDecoder.Node
import VehicleCanDecoder.Frames
import VehicleCanDecoder.Tally
import VehicleCanDecoder.Spin
import VehicleCanDecoder.Aliases
import VehicleCanDecoder.Schema
import VehicleCanDecoder.Routing
import VehicleCanDecoder.Firehose
import VehicleCanDecoder.Staleness
import VehicleCanDecoder.Identity
import VehicleCanDecoder.Converter.CdrBuffer
import VehicleCanDecoder.Converter.Config
import VehicleCanDecoder.Converter.Loop
import VehicleCanDecoder.Converter.Segments
import VehicleCanDecoder.Converter.RunLaw
import VehicleCanDecoder.Converter.CanIds
import VehicleCanDecoder.Converter.Agreement
import VehicleCanDecoder.Converter.Typing
import VehicleCanDecoder.Converter.Main
import VehicleCanDecoder.Converter.Failure
import VehicleCanDecoder.Converter.Outputs
import VehicleCanDecoder.Converter.Complete
import VehicleCanDecoder.BeyondDlc
import VehicleCanDecoder.TimeoutRuns
import VehicleCanDecoder.Transforms
import VehicleCanDecoder.KnownIds
import VehicleCanDecoder.Multiplexing
import VehicleCanDecoder.CanFrames
import VehicleCanDecoder.ErrorFlag
import VehicleCanDecoder.Counters
import VehicleCanDecoder.UnitIds
import VehicleCanDecoder.Converter.NameIds
import VehicleCanDecoder.Converter.YamlTrees
import VehicleCanDecoder.Converter.ConfigFiles
import VehicleCanDecoder.Schedules
import VehicleCanDecoder.ParameterNames
import VehicleCanDecoder.Accepted
import VehicleCanDecoder.Converter.Replay
import VehicleCanDecoder.Lib.MsgDefinition
import VehicleCanDecoder.Converter.AmentPrefix
import VehicleCanDecoder.Converter.Again
import VehicleCanDecoder.Converter.Runs
import VehicleCanDecoder.Bounded
import VehicleCanDecoder.Converter.Archive
import VehicleCanDecoder.Converter.CommandLine
import VehicleCanDecoder.Converter.Orders
import VehicleCanDecoder.SchemaVersions
import VehicleCanDecoder.Launch
import VehicleCanDecoder.Converter.Exit
