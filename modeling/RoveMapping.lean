import RoveMapping.Library.Program
import RoveMapping.Library.Interference
import RoveMapping.Library.Machine
import RoveMapping.MappingApi.Actions
import RoveMapping.MappingApi.StateAgreement
import RoveMapping.MappingApi.Export
import RoveMapping.Library.OrderStatistics
import RoveMapping.Tuner.Metrics
import RoveMapping.Tuner.FailurePenalty
import RoveMapping.Library.TokenPool
import RoveMapping.Tuner.DomainPool
import RoveMapping.Library.PythonLiteral
import RoveMapping.Tuner.LaunchTemplate
import RoveMapping.Tuner.Template
import RoveMapping.Tuner.RenderedLaunch
import RoveMapping.Tuner.TrialRunner
import RoveMapping.Tuner.TrialWorld
import RoveMapping.Tuner.Shutdown
import RoveMapping.Library.Possible
import RoveMapping.Tuner.BagOutput
import RoveMapping.Tuner.TrialMarker
import RoveMapping.Library.Resampling
import RoveMapping.MappingApi.Minimap
import RoveMapping.ColorMesh.Coloring
import RoveMapping.ColorMesh.Channels
import RoveMapping.Tuner.EarlierDatabase
import RoveMapping.Library.Polyline
import RoveMapping.Tuner.AggregatorLaws
import RoveMapping.Tuner.Trajectory
import RoveMapping.Tuner.Improvement
import RoveMapping.Library.Numbering
import RoveMapping.Library.PythonInt
import RoveMapping.Tuner.BagNames
import RoveMapping.Tuner.ExtentPenalty
import RoveMapping.Tuner.StudyAnalysis
import RoveMapping.Tuner.StudyRanking
import RoveMapping.Library.Bytes
import RoveMapping.Slam.PointClouds
import RoveMapping.Slam.LidarRecording
import RoveMapping.MappingApi.Quiescence
import RoveMapping.MappingApi.Config
import RoveMapping.MappingApi.HttpPost
import RoveMapping.Library.Raster
import RoveMapping.MappingApi.MapWindow
import RoveMapping.ColorMesh.Rotations
import RoveMapping.Library.PythonText
import RoveMapping.Library.Bisection
import RoveMapping.ColorMesh.Poses
import RoveMapping.Library.Masks
import RoveMapping.ColorMesh.Sampling
import RoveMapping.Library.Patience
import RoveMapping.Tuner.ResilientOptimize
import RoveMapping.MappingApi.ConfigReload
import RoveMapping.Library.Solo
import RoveMapping.Library.LastMaximum
import RoveMapping.MappingApi.FreshExport
import RoveMapping.Library.Interrupts
import RoveMapping.Tuner.SignalDelivery
import RoveMapping.Tuner.SessionCleanup
import RoveMapping.Tuner.Sessions
import RoveMapping.Library.Binary64
import RoveMapping.Library.PythonFloat
import RoveMapping.Tuner.ScoreGate
import RoveMapping.Library.Ancestry
import RoveMapping.ColorMesh.Kinematics
import RoveMapping.Library.QuaternionMatrix
import RoveMapping.Vectornav.EulerAngles
import RoveMapping.ColorMapping.LidarMerger
import RoveMapping.ColorMesh.UncoveredVertices
import RoveMapping.Tuner.PlaceholderScan
import RoveMapping.Calibration.FromFolder
import RoveMapping.Slam.StartupTransforms
import RoveMapping.Library.Cdr
import RoveMapping.ColorMesh.ImageWire
import RoveMapping.Library.Binary32
import RoveMapping.Slam.ObstacleCloud
import RoveMapping.Library.NearestEven
import RoveMapping.Library.RoundedFloat
import RoveMapping.Library.Binary64Values
import RoveMapping.Slam.PointTimes
import RoveMapping.Library.WhileTrue
import RoveMapping.Calibration.PointLists
import RoveMapping.Calibration.ViewRefinement
import RoveMapping.Library.RingBuffer
import RoveMapping.Livox.LidarDataQueue
import RoveMapping.Livox.CacheIndex
import RoveMapping.Livox.Distribution
import RoveMapping.Livox.Wakeups
import RoveMapping.Livox.PubHandler
import RoveMapping.Livox.Driver
import RoveMapping.Livox.PointCloudMsg
import RoveMapping.Livox.PublishedTimes
import RoveMapping.Livox.Topic
import RoveMapping.Livox.Frames
import RoveMapping.Livox.Starvation
import RoveMapping.Livox.DeviceConfig
import RoveMapping.Livox.ConfigFile
import RoveMapping.Library.Potential
import RoveMapping.Livox.Shutdown
import RoveMapping.Slam.MeshBuilder
import RoveMapping.Livox.TopicRecording
import RoveMapping.ColorMesh.TrajectoryFile
