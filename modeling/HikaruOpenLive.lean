import HikaruOpenLive.Foundations.Runs
import HikaruOpenLive.Foundations.TimedContent
import HikaruOpenLive.Foundations.CyclicWindow
import HikaruOpenLive.Foundations.BlockSplit
import HikaruOpenLive.Foundations.ListEdits
import HikaruOpenLive.Foundations.Interleave
import HikaruOpenLive.Foundations.Grid
import HikaruOpenLive.Foundations.FrontMark
import HikaruOpenLive.Foundations.Registry
import HikaruOpenLive.Foundations.KeyIndex
import HikaruOpenLive.Foundations.RoundTrip
import HikaruOpenLive.Foundations.Lowercase
import HikaruOpenLive.Foundations.SparseRow
import HikaruOpenLive.Foundations.Upsert
import HikaruOpenLive.Transport.Position
import HikaruOpenLive.Sequencer.ClipTimeline
import HikaruOpenLive.Sequencer.TimelineInvariant
import HikaruOpenLive.Sequencer.CutPaste
import HikaruOpenLive.Sequencer.RangeEdits
import HikaruOpenLive.Sequencer.SplitRender
import HikaruOpenLive.Sequencer.CutSplits
import HikaruOpenLive.Sequencer.ClipVoice
import HikaruOpenLive.Sequencer.LoopedVoice
import HikaruOpenLive.Engine.AudioClip
import HikaruOpenLive.Engine.LoopFrames
import HikaruOpenLive.Engine.ClipRender
import HikaruOpenLive.Engine.ClipCuts
import HikaruOpenLive.Engine.Preview
import HikaruOpenLive.Engine.DmsVoices
import HikaruOpenLive.Engine.Process
import HikaruOpenLive.Engine.BlockCuts
import HikaruOpenLive.Engine.ClipCommands
import HikaruOpenLive.Engine.Exclusivity
import HikaruOpenLive.Engine.MonoStereo
import HikaruOpenLive.Engine.PluginChains
import HikaruOpenLive.Engine.TapRegistry
import HikaruOpenLive.Engine.DmsPool
import HikaruOpenLive.Engine.DmsVoiceRuns
import HikaruOpenLive.Engine.DmsFrames
import HikaruOpenLive.Engine.DmsBuffers
import HikaruOpenLive.PluginHost.ParamPoll
import HikaruOpenLive.PluginHost.PlanarScratch
import HikaruOpenLive.PluginHost.PluginTap
import HikaruOpenLive.PluginHost.TapInterleavings
import HikaruOpenLive.PluginHost.ClapInstance
import HikaruOpenLive.PluginHost.ClapBlocks
import HikaruOpenLive.PluginHost.ClapParams
import HikaruOpenLive.PluginHost.ClapSession
import HikaruOpenLive.PluginHost.Vst3Instance
import HikaruOpenLive.PluginHost.Vst3Session
import HikaruOpenLive.Gui.DspSlot
import HikaruOpenLive.Gui.AppState
import HikaruOpenLive.Gui.RackRows
import HikaruOpenLive.Gui.RackSession
import HikaruOpenLive.Gui.ChainMirror
import HikaruOpenLive.Gui.ClipEditor
import HikaruOpenLive.Gui.LoopEdits
import HikaruOpenLive.Gui.LoopSaves
import HikaruOpenLive.Gui.ParamDelivery
import HikaruOpenLive.Gui.SlotSync
import HikaruOpenLive.Gui.PluginWindows
import HikaruOpenLive.Gui.WindowTables
import HikaruOpenLive.Gui.WindowRuns
import HikaruOpenLive.Gui.WavDecode
import HikaruOpenLive.Gui.DmsTracks
import HikaruOpenLive.Gui.DmsIsolation
import HikaruOpenLive.Gui.PreviewThreads
import HikaruOpenLive.Gui.CommandLoop
import HikaruOpenLive.Gui.LoopContention
import HikaruOpenLive.Gui.ParamProbes
import HikaruOpenLive.Gui.ProbeStatus
import HikaruOpenLive.Gui.RackProbes
import HikaruOpenLive.Engine.ClipCells
import HikaruOpenLive.Engine.ClipLists
import HikaruOpenLive.Engine.WholeLoops
import HikaruOpenLive.Engine.LoopReplay
import HikaruOpenLive.Engine.BeatLoops
import HikaruOpenLive.Engine.FullLoops
import HikaruOpenLive.Engine.LegatoStart
import HikaruOpenLive.Gui.WavFile
import HikaruOpenLive.Gui.MatrixState
import HikaruOpenLive.Gui.MatrixProject
import HikaruOpenLive.Gui.ClipRoundTrip
import HikaruOpenLive.Gui.MatrixGrid
import HikaruOpenLive.Gui.PadStates
import HikaruOpenLive.Gui.PadDelivery
import HikaruOpenLive.Gui.PadMirror
import HikaruOpenLive.Gui.MirrorApply
import HikaruOpenLive.Gui.MirrorRuns
import HikaruOpenLive.Gui.PadLaunches
import HikaruOpenLive.Gui.LaunchSession
import HikaruOpenLive.Gui.PadDrops
import HikaruOpenLive.Gui.DropRuns
import HikaruOpenLive.Gui.PadDecoders
import HikaruOpenLive.Gui.PadReloads
import HikaruOpenLive.Gui.MixerStrips
import HikaruOpenLive.Gui.MixerTracks
import HikaruOpenLive.Gui.PluginIds
import HikaruOpenLive.Gui.PianoRoll
import HikaruOpenLive.Gui.NoteTriggers
import HikaruOpenLive.Gui.PlaylistState
import HikaruOpenLive.Gui.ProjectApply
import HikaruOpenLive.Gui.MixControls
import HikaruOpenLive.Gui.TrackIndexes
import HikaruOpenLive.Gui.FrameSync
import HikaruOpenLive.Gui.MixRoundTrip
import HikaruOpenLive.Gui.MixerSync
import HikaruOpenLive.Gui.TrackRoutes
import HikaruOpenLive.Gui.TrackEdits
import HikaruOpenLive.Gui.RouteRuns
import HikaruOpenLive.Gui.MasterStrip
import HikaruOpenLive.Gui.MixerReconcile
import HikaruOpenLive.Gui.ProjectMix
import HikaruOpenLive.Gui.PlaylistEdits
import HikaruOpenLive.Gui.PlaylistIds
import HikaruOpenLive.Gui.TimelineFile
import HikaruOpenLive.Gui.ProjectDocuments
import HikaruOpenLive.Gui.DocumentApply
import HikaruOpenLive.Gui.SampleFiles
import HikaruOpenLive.Gui.DocumentRepairs
import HikaruOpenLive.Cli.Validator
import HikaruOpenLive.Cli.ValidatedDocuments
import HikaruOpenLive.Mcp.Audit
import HikaruOpenLive.Mcp.IpcStub
import HikaruOpenLive.Mcp.PortConfig
import HikaruOpenLive.Gui.PlaylistDelivery
import HikaruOpenLive.Gui.ClipIsolation
import HikaruOpenLive.Gui.PlaylistRuns
import HikaruOpenLive.Foundations.Saturating
import HikaruOpenLive.Foundations.SlotMoves
import HikaruOpenLive.Gui.ClipTrims
import HikaruOpenLive.Gui.PlaylistCopies
import HikaruOpenLive.Gui.DeviceMoves
import HikaruOpenLive.PluginHost.WindowPump
import HikaruOpenLive.Gui.WavetableDecode
import HikaruOpenLive.PluginHost.ParamTexts
import HikaruOpenLive.PluginHost.ClapTimers
import HikaruOpenLive.PluginHost.FrameRegions
import HikaruOpenLive.PluginHost.FrameResize
import HikaruOpenLive.Gui.LoopHandles
import HikaruOpenLive.Gui.RulerLoop
import HikaruOpenLive.Foundations.SampleStreams
import HikaruOpenLive.Dsp.SpectralPhaser
import HikaruOpenLive.Gui.DmsEnvelopes
import HikaruOpenLive.Engine.PreviewFrames
import HikaruOpenLive.Foundations.LastSplit
import HikaruOpenLive.Gui.ProjectPaths
import HikaruOpenLive.Foundations.FileTrees
import HikaruOpenLive.Gui.PluginScan
import HikaruOpenLive.Gui.GridViewport
import HikaruOpenLive.Gui.PianoRollLayers
import HikaruOpenLive.Gui.IntegerFiles
import HikaruOpenLive.Gui.PeakPyramid
import HikaruOpenLive.Gui.EventPlacement
import HikaruOpenLive.Gui.EventSplits
import HikaruOpenLive.Gui.PadPreview
import HikaruOpenLive.Gui.PreviewMatch
import HikaruOpenLive.Foundations.DelayLines
import HikaruOpenLive.Dsp.CombFilter
import HikaruOpenLive.Dsp.Flanger
import HikaruOpenLive.Foundations.Dissipation
import HikaruOpenLive.Dsp.StateVariableFilter
import HikaruOpenLive.Foundations.OverlapAdd
import HikaruOpenLive.Dsp.OpenHarmonic
import HikaruOpenLive.Dsp.UnisonShift
import HikaruOpenLive.Foundations.Replacement
import HikaruOpenLive.Mcp.Prompts
import HikaruOpenLive.Mcp.ToolCalls
import HikaruOpenLive.Mcp.ToolSessions
import HikaruOpenLive.Foundations.TriangleMesh
import HikaruOpenLive.Render.WavetableMesh
import HikaruOpenLive.Render.TerrainFaces
import HikaruOpenLive.Render.TerrainView
import HikaruOpenLive.Foundations.Words
import HikaruOpenLive.Foundations.Gestures
import HikaruOpenLive.Gui.WavetableEditor
import HikaruOpenLive.Gui.EditorRuns
import HikaruOpenLive.Gui.EditorCycles
import HikaruOpenLive.Gui.EditorDrags
import HikaruOpenLive.Gui.ModalDrags
import HikaruOpenLive.Mcp.GhidraReports
import HikaruOpenLive.Mcp.GhidraListing
