import Switchboard.Activity
import Switchboard.Analysis.Command
import Switchboard.Analysis.Diagnostics
import Switchboard.Analysis.Messages
import Switchboard.Analysis.Running
import Switchboard.Analysis.Session
import Switchboard.Channel.Call
import Switchboard.Channel.Envelope
import Switchboard.Channel.Fault
import Switchboard.Channel.Features
import Switchboard.Channel.Frame
import Switchboard.Channel.Network
import Switchboard.Channel.Pending
import Switchboard.CommandLine
import Switchboard.Concurrency.Deferred
import Switchboard.Concurrency.Task
import Switchboard.Debug.Breakpoint
import Switchboard.Debug.Breakpoint.Catalog
import Switchboard.Debug.Command
import Switchboard.Debug.Control
import Switchboard.Debug.Debugger
import Switchboard.Debug.Editing
import Switchboard.Debug.Fault
import Switchboard.Debug.Launch
import Switchboard.Debug.Launch.Catalog
import Switchboard.Debug.Messages
import Switchboard.Debug.Running
import Switchboard.Debug.Session
import Switchboard.Debug.Stack
import Switchboard.Debug.Store
import Switchboard.Debug.Sync
import Switchboard.Debug.Target
import Switchboard.Debug.Template
import Switchboard.Debug.Thread
import Switchboard.Disk
import Switchboard.Editor.Order
import Switchboard.Editor.Service
import Switchboard.Json.Basic
import Switchboard.Json.Double
import Switchboard.Json.Reader
import Switchboard.Json.Record
import Switchboard.Json.Shape
import Switchboard.Json.Writer
import Switchboard.LogFile
import Switchboard.Main
import Switchboard.Path
import Switchboard.Process
import Switchboard.Rehearsal
import Switchboard.Rehearsal.AnalysisSessions
import Switchboard.Rehearsal.OneChannel
import Switchboard.Rehearsal.OneTarget
import Switchboard.Rehearsal.Peer
import Switchboard.Rehearsal.Script
import Switchboard.Rehearsal.Shell
import Switchboard.Rehearsal.WholeDebugger
import Switchboard.Settings.Basic
import Switchboard.Settings.Load
import Switchboard.Sources
import Switchboard.Text.Blank
import Switchboard.Text.Lines
import Switchboard.Text.Quoted
import Switchboard.Text.Utf8
import Switchboard.Toml.Basic
import Switchboard.Toml.Document
import Switchboard.Toml.Lexeme
import Switchboard.World
import Switchboard.Proofs.Keyed
import Switchboard.Proofs.Breakpoint.Invariant
import Switchboard.Proofs.Channel.Correlation
import Switchboard.Proofs.Concurrency.Step
import Switchboard.Proofs.Concurrency.Timed
import Switchboard.Proofs.Channel.Exchange
import Switchboard.Proofs.Debug.Fetch
import Switchboard.Proofs.Debug.Threads
import Switchboard.Proofs.Debug.Course
import Switchboard.Proofs.Debug.Deeds
import Switchboard.Proofs.Debug.Freshness
import Switchboard.Proofs.Breakpoint.Topics
import Switchboard.Proofs.Debug.Telling
import Switchboard.Proofs.Debug.Errands
import Switchboard.Proofs.Debug.Interleaving
import Switchboard.Proofs.Debug.Convergence
import Switchboard.Proofs.Breakpoint.Following
import Switchboard.Proofs.Debug.Endings
import Switchboard.Proofs.Debug.Stepping
import Switchboard.Proofs.Debug.Contents
import Switchboard.Proofs.Concurrency.Accesses
import Switchboard.Proofs.Channel.Envelopes
import Switchboard.Proofs.Channel.Traffic
import Switchboard.Proofs.Debug.Lifecycle
import Switchboard.Proofs.Debug.Keeping
import Switchboard.Proofs.Debug.Scene
import Switchboard.Proofs.Debug.Occupancy
import Switchboard.Proofs.Debug.Departures
import Switchboard.Proofs.Json.Lexemes
import Switchboard.Proofs.Json.Reading
import Switchboard.Proofs.Json.Fields
import Switchboard.Proofs.Debug.Stored
import Switchboard.Proofs.Disk.Names
import Switchboard.Proofs.Debug.StateFiles
import Switchboard.Proofs.Breakpoint.Storing
import Switchboard.Proofs.Launch.Storing
import Switchboard.Proofs.Debug.Mirror
import Switchboard.Proofs.Launch.Isolation
import Switchboard.Proofs.Debug.Roster
import Switchboard.Proofs.Debug.Synchronizing
import Switchboard.Proofs.Debug.Proceeding
import Switchboard.Proofs.Breakpoint.Shown
import Switchboard.Proofs.Launch.Shown
import Switchboard.Proofs.Debug.Board
import Switchboard.Proofs.Debug.Bustle
import Switchboard.Proofs.Breakpoint.Files
import Switchboard.Proofs.Debug.Handshake
import Switchboard.Proofs.Debug.Configuring
import Switchboard.Proofs.Concurrency.Ensemble
import Switchboard.Proofs.Channel.Turns
import Switchboard.Proofs.Channel.Asking
import Switchboard.Proofs.Channel.Speech
import Switchboard.Proofs.Channel.SingleFlight
import Switchboard.Proofs.Debug.Readiness
import Switchboard.Proofs.Analysis.Greeting
import Switchboard.Proofs.Analysis.Order
import Switchboard.Proofs.Debug.Grounding
import Switchboard.Proofs.Debug.Pursuit
import Switchboard.Proofs.Debug.Launching
import Switchboard.Proofs.Text.Utf8
import Switchboard.Proofs.Text.Pieces
import Switchboard.Proofs.Channel.Grammar
import Switchboard.Proofs.Channel.Framing
import Switchboard.Proofs.Channel.Reader
import Switchboard.Proofs.Channel.Hush
import Switchboard.Proofs.Debug.Hush
import Switchboard.Proofs.Debug.Hearing
import Switchboard.Proofs.Concurrency.Awaiting
import Switchboard.Proofs.Channel.Awaiting
import Switchboard.Proofs.Debug.Awaiting
import Switchboard.Proofs.Debug.Fairness
import Switchboard.Proofs.Debug.Parting
import Switchboard.Proofs.Concurrency.Carrying
import Switchboard.Proofs.Channel.Steady
import Switchboard.Proofs.Analysis.Places
import Switchboard.Proofs.Analysis.Custody
import Switchboard.Proofs.Analysis.Ledger
import Switchboard.Proofs.Debug.Retiring
import Switchboard.Proofs.Breakpoint.Verified
import Switchboard.Proofs.Debug.Upkeep
import Switchboard.Proofs.Debug.Rounds
import Switchboard.Proofs.Debug.Verifying
import Switchboard.Proofs.Debug.Transitions
import Switchboard.Proofs.Debug.Ahead
import Switchboard.Proofs.Debug.Prefetching
import Switchboard.Proofs.Breakpoint.Edits
import Switchboard.Proofs.Channel.Silence
import Switchboard.Proofs.Editor.Lines
import Switchboard.Proofs.Editor.Discretion
import Switchboard.Proofs.Editor.Bystanders
import Switchboard.Proofs.Editor.Serving
import Switchboard.Proofs.Editor.Replies
import Switchboard.Proofs.Editor.Stopping
import Switchboard.Proofs.Editor.Sweeping
import Switchboard.Proofs.Editor.Losses
import Switchboard.Proofs.Debug.Halting
import Switchboard.Proofs.Debug.Arrivals
import Switchboard.Proofs.Concurrency.Records
import Switchboard.Proofs.Channel.Dispatches
import Switchboard.Proofs.Debug.Inquiries
import Switchboard.Proofs.Debug.Outlines
import Switchboard.Proofs.Debug.Terminating
import Switchboard.Proofs.Debug.Evaluating
import Switchboard.Proofs.Debug.Rendering
import Switchboard.Proofs.Debug.Unfolding
import Switchboard.Proofs.Debug.Unedited
import Switchboard.Proofs.Debug.Sharing
import Switchboard.Proofs.Text.Places
import Switchboard.Proofs.Channel.Features
import Switchboard.Proofs.Launch.Forms
import Switchboard.Proofs.Breakpoint.Namesakes
import Switchboard.Proofs.Debug.Clearing
import Switchboard.Proofs.Toml.Document
import Switchboard.Proofs.Settings.Layers
import Switchboard.Proofs.Debug.Numbering
import Switchboard.Proofs.LogFile.Rotation
import Switchboard.Proofs.Analysis.Mirror
import Switchboard.Proofs.Text.Uri
import Switchboard.Proofs.Analysis.Addresses
