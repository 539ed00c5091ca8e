import AirNote.Taint
import AirNote.Egress
import AirNote.WriteGate
import AirNote.FailedWrite
import AirNote.UndoStack
import AirNote.ApplyRace
import AirNote.ProposalLifecycle
import AirNote.HighWater
import AirNote.NoteHistory
import AirNote.RecallIndex
import AirNote.EvolveRestart
import AirNote.SingleDaemon
import AirNote.DetectorSound
import AirNote.RecallPool
import AirNote.SelfLoop
import AirNote.RoomAuthority
import AirNote.ChannelGaps
import AirNote.Ingest
import AirNote.RoomRaces
import AirNote.ChannelFence
import AirNote.ReceiveAll
import AirNote.Acknowledgements
import AirNote.EngineTransport
import AirNote.ReplyOwner
import AirNote.ConsumerLock
import AirNote.Critique
import AirNote.Fusion
import AirNote.BridgeTiers
import AirNote.SynthesisCache
import AirNote.PassageText
import AirNote.Render
import AirNote.Snapshot
import AirNote.NetGuard
import AirNote.StalePages
import AirNote.ConflictKeys
import AirNote.Timestamps
import AirNote.Missions
import AirNote.SecretVault
import AirNote.InboxView
import AirNote.FileTools
import AirNote.ReplyPrompt
import AirNote.ClaudeCode
import AirNote.SealedBody
