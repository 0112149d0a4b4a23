import SignalGraph.Dump
import SignalGraph.Main
import SignalGraph.Value.Text
import SignalGraph.Wire.Types
import SignalGraph.Proofs.Builtin.Hosted
import SignalGraph.Proofs.Wave.Guard
import SignalGraph.Proofs.Builtin.Declared
import SignalGraph.Proofs.Graph.Walks
import SignalGraph.Proofs.Builtin.Delivery
import SignalGraph.Proofs.Builtin.DepthFirst
import SignalGraph.Proofs.Builtin.Storing
import SignalGraph.Proofs.Graph.Renaming
import SignalGraph.Proofs.Wave.Simulation
import SignalGraph.Proofs.Document.Replay
import SignalGraph.Proofs.Document.Reload
import SignalGraph.Proofs.Document.Replica
import SignalGraph.Proofs.Wave.Unguarded
import SignalGraph.Proofs.Wave.Watching
import SignalGraph.Proofs.Builtin.GuardedSearch
import SignalGraph.Proofs.Document.Stored
import SignalGraph.Proofs.Graph.Atomic
import SignalGraph.Proofs.Wave.Stopping
import SignalGraph.Proofs.Wire.Decoding
import SignalGraph.Proofs.Document.Linking
import SignalGraph.Proofs.Document.Acceptance
import SignalGraph.Proofs.Document.Reproduction
import SignalGraph.Proofs.Graph.Removal
import SignalGraph.Proofs.Wave.Confinement
import SignalGraph.Proofs.Builtin.Reasons
import SignalGraph.Proofs.Wire.Consumed
import SignalGraph.Proofs.Document.Numbering
import SignalGraph.Proofs.Document.Phases
import SignalGraph.Proofs.Document.Canonical
import SignalGraph.Proofs.Builtin.Assigning
import SignalGraph.Proofs.Host.Export
import SignalGraph.Proofs.Graph.Cascade
import SignalGraph.Proofs.Graph.Transient
import SignalGraph.Proofs.Builtin.Counting
import SignalGraph.Proofs.Builtin.StateBytes
import SignalGraph.Proofs.Host.Resaving
import SignalGraph.Proofs.Wave.Ticking
import SignalGraph.Proofs.Graph.Listing
import SignalGraph.Proofs.Host.PartialSettings
