import TagLedger.Json.Display
import TagLedger.Json.Parser
import TagLedger.Store.Root
import TagLedger.Identifier
import TagLedger.Config.Basic
import TagLedger.Queue.Task
import TagLedger.Template.Reference
import TagLedger.Tag.Reply
import TagLedger.Tag.Keyword
import TagLedger.Text.Word
import TagLedger.Store.Migration
import TagLedger.Variable.Operation
import TagLedger.Suite.Operation
import TagLedger.Completion.Client
import TagLedger.Service.Server
import TagLedger.Store.Folder
import TagLedger.Catalogue
import TagLedger.Session.Overview
import TagLedger.Main
import TagLedger.Proofs.Reopening
import TagLedger.Proofs.Remaining
import TagLedger.Proofs.Removal
import TagLedger.Proofs.Counting
import TagLedger.Proofs.Isolation
import TagLedger.Proofs.Replies
import TagLedger.Proofs.Resolving
import TagLedger.Proofs.Versions
import TagLedger.Proofs.Filling
import TagLedger.Proofs.Withdrawing
import TagLedger.Proofs.Labelling
import TagLedger.Proofs.Spelling
import TagLedger.Proofs.Escaping
import TagLedger.Proofs.Intervals
import TagLedger.Proofs.Overlapping
import TagLedger.Proofs.Patching
import TagLedger.Proofs.Finding
import TagLedger.Proofs.Activating
import TagLedger.Proofs.Browsing
import TagLedger.Proofs.Overwriting
import TagLedger.Proofs.Answering
import TagLedger.Proofs.Surviving
import TagLedger.Proofs.Extracting
import TagLedger.Proofs.Flushing
import TagLedger.Proofs.Selecting
import TagLedger.Proofs.Converging
import TagLedger.Proofs.Branching
import TagLedger.Proofs.Inheriting
import TagLedger.Proofs.Picking
import TagLedger.Proofs.Bounding
import TagLedger.Proofs.Keeping
import TagLedger.Proofs.Crewing
import TagLedger.Proofs.Positioning
import TagLedger.Proofs.Sequencing
import TagLedger.Proofs.Stepping
import TagLedger.Proofs.Fitting
import TagLedger.Proofs.Reordering
import TagLedger.Proofs.Logging
import TagLedger.Proofs.Rendering
import TagLedger.Proofs.Replacing
