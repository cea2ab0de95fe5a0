import NetBridge.Moves
import NetBridge.Registration
import NetBridge.Discipline
import NetBridge.Tiling
import NetBridge.Sender
import NetBridge.Retransmission
import NetBridge.Tables
import NetBridge.Backlog
import NetBridge.Connection
import NetBridge.GoBackN
import NetBridge.Endpoint
import NetBridge.Closing
import NetBridge.Filling
import NetBridge.Wire
import NetBridge.Isolation
import NetBridge.StackNode
import NetBridge.Timer
import NetBridge.Lifecycle
import NetBridge.Topology
import NetBridge.Trawler
import NetBridge.Emulator
import NetBridge.Simulator
import NetBridge.Contracts
import NetBridge.Backoff
import NetBridge.CongestionWindow
import NetBridge.Reuse
import NetBridge.Karn
import NetBridge.Script
import NetBridge.Network
import NetBridge.Overflow
import NetBridge.Tasks
import NetBridge.SequenceNumbers
import NetBridge.TopologyHistory
import NetBridge.CommandLines
import NetBridge.EdgeCommand
import NetBridge.Directives
import NetBridge.Handshakes
import NetBridge.Applications
import NetBridge.Reactions
import NetBridge.Simulation
import NetBridge.NodeTimers
import NetBridge.Schedule
import NetBridge.Punctual
import NetBridge.Quiescence
import NetBridge.Wakeups
import NetBridge.Completion
import NetBridge.Recovery
import NetBridge.Overlay
import NetBridge.Provenance
