import Chronicle.Json.Reader
import Chronicle.Json.Writer
import Chronicle.Proofs.Accounts
import Chronicle.Proofs.Addressing
import Chronicle.Proofs.Bracketing
import Chronicle.Proofs.Commuting
import Chronicle.Proofs.Deferred
import Chronicle.Proofs.Drawing
import Chronicle.Proofs.Exclusion
import Chronicle.Proofs.Filing
import Chronicle.Proofs.Freshness
import Chronicle.Proofs.Gating
import Chronicle.Proofs.Histories
import Chronicle.Proofs.InOrder
import Chronicle.Proofs.Merging
import Chronicle.Proofs.Messages
import Chronicle.Proofs.Posting
import Chronicle.Proofs.Postponing
import Chronicle.Proofs.Racing
import Chronicle.Proofs.Receipts
import Chronicle.Proofs.Refetching
import Chronicle.Proofs.Reload
import Chronicle.Proofs.Requeueing
import Chronicle.Proofs.Resolving
import Chronicle.Proofs.Returning
import Chronicle.Proofs.Settling
import Chronicle.Proofs.Signing
import Chronicle.Proofs.Spacing
import Chronicle.Proofs.Sparing
import Chronicle.Proofs.TornWrites
import Chronicle.Proofs.UnitsOfWork
import Chronicle.Proofs.Updates
import Chronicle.Proofs.Waking
import Chronicle.Rehearsal
import Chronicle.Report.Dump
import Chronicle.Report.Failure
import Chronicle.Report.Mask
import Chronicle.Session.Entities
import Chronicle.Session.Nodes
import Chronicle.Proofs.Editing
import Chronicle.Proofs.Channels
import Chronicle.Proofs.Punctuality
import Chronicle.Proofs.Custody
import Chronicle.Proofs.Composing
import Chronicle.Proofs.Rehearsing
