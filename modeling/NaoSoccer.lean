import NaoSoccer.Foundation.LabelledRun
import NaoSoccer.Core.Blocks
import NaoSoccer.Core.MotionVision
import NaoSoccer.Core.Odometry
import NaoSoccer.Core.WalkCommand
import NaoSoccer.Common.BinarySerializable
import NaoSoccer.Common.SerializationRoundTrip
import NaoSoccer.Communications.MessageDelivery
import NaoSoccer.Memory.LogReader
import NaoSoccer.Memory.LogRecords
import NaoSoccer.Memory.LogRoundTrip
import NaoSoccer.Foundation.Grammar
import NaoSoccer.Foundation.Saturation
import NaoSoccer.Schema.FieldCode
import NaoSoccer.Schema.FieldCoverage
import NaoSoccer.Schema.ParseForest
import NaoSoccer.Schema.ParserCompleteness
import NaoSoccer.Common.VisionAnnotation
import NaoSoccer.Communications.LogSelection
import NaoSoccer.Communications.MemoryStreaming
import NaoSoccer.Core.HungarianSolver
import NaoSoccer.Core.ImageCapture
import NaoSoccer.Core.LogSessions
import NaoSoccer.Core.OppModule
import NaoSoccer.Core.OpponentSlots
import NaoSoccer.Core.SendParams
import NaoSoccer.Core.TaskEvents
import NaoSoccer.Core.TaskReset
import NaoSoccer.Schema.Tokenizer
import NaoSoccer.Schema.DirectivePlaces
import NaoSoccer.Schema.RemoveDirectives
import NaoSoccer.Schema.SwigHeader
import NaoSoccer.Common.AnnotationFile
import NaoSoccer.Common.AnnotationGroup
import NaoSoccer.Communications.ReceiverBounds
import NaoSoccer.Communications.SendAccounting
import NaoSoccer.Communications.ToolMessages
import NaoSoccer.Foundation.GreedyReading
import NaoSoccer.Foundation.SententialForms
import NaoSoccer.Memory.LogCache
import NaoSoccer.Schema.FirstFollow
import NaoSoccer.Schema.ParserEndings
import NaoSoccer.Schema.ParserReports
import NaoSoccer.Common.AnnotationFrames
import NaoSoccer.Common.AnnotationLoading
import NaoSoccer.Common.AnnotationMerge
import NaoSoccer.Common.CoachPacket
import NaoSoccer.Common.EnclosedPoints
import NaoSoccer.Common.Polygon
import NaoSoccer.Common.RingQueue
import NaoSoccer.Common.SelectionShapes
import NaoSoccer.Foundation.Painting
import NaoSoccer.Schema.TokenScan
import NaoSoccer.Tools.ColorTable
import NaoSoccer.Tools.PixelStatistics
import NaoSoccer.Tools.TablePruning
import NaoSoccer.Common.NMatrix
import NaoSoccer.Core.OppMergeLoop
import NaoSoccer.Core.PairwiseCostMerge
import NaoSoccer.Core.ButtonModule
import NaoSoccer.Core.IterationEvents
import NaoSoccer.Core.KickModule
import NaoSoccer.Core.KickSchedule
import NaoSoccer.Core.NegationEvents
import NaoSoccer.Core.ObservationUse
import NaoSoccer.Core.SignalTravel
import NaoSoccer.Core.SpecialMotion
import NaoSoccer.Core.TaskChain
import NaoSoccer.Core.TransitionLoop
import NaoSoccer.Schema.IdentifierTokens
import NaoSoccer.Common.RingQueueWithSum
import NaoSoccer.Communications.ServerShutdown
import NaoSoccer.Core.FocusArea
import NaoSoccer.Core.PoseMirror
import NaoSoccer.Foundation.Dictionary
import NaoSoccer.Schema.CommentScan
import NaoSoccer.Schema.LevelLookup
import NaoSoccer.Schema.ParsedType
import NaoSoccer.Schema.TypeDatabase
import NaoSoccer.Tools.BehaviorSimulation
import NaoSoccer.Tools.ProcessExecutor
import NaoSoccer.Schema.TypeAcceptance
import NaoSoccer.Core.GetupModule
import NaoSoccer.Foundation.Brackets
import NaoSoccer.Foundation.PartialReads
import NaoSoccer.Foundation.Transducer
import NaoSoccer.SimSpark.AgentSocket
import NaoSoccer.SimSpark.Base64
import NaoSoccer.SimSpark.Base64Memory
import NaoSoccer.SimSpark.MessageSegments
import NaoSoccer.SimSpark.TeamSpeech
import NaoSoccer.Common.EnumName
import NaoSoccer.Common.RingBufferWithSum
import NaoSoccer.Core.MotionFrames
import NaoSoccer.Core.SonarModule
import NaoSoccer.SimSpark.Lockstep
