import EditorLink.Text.Basic
import EditorLink.Text.Percent
import EditorLink.Json.Reader
import EditorLink.Json.Writer
import EditorLink.Json.Display
import EditorLink.Session.Scenario
import EditorLink.Proofs.Json.Limits
import EditorLink.Proofs.Session.SingleFlight
import EditorLink.Proofs.Session.Decision
import EditorLink.Migration.Fix
import EditorLink.Migration.Record
import EditorLink.Review.Report
import EditorLink.Review.Repair
import EditorLink.Project.Detector
import EditorLink.Settings
import EditorLink.Exchange.Basic
import EditorLink.Tool.Schema
import EditorLink.Server
import EditorLink.Proofs.Review.Repairs
import EditorLink.Proofs.Session.Disconnect
import EditorLink.Proofs.Migration.Regressions
import EditorLink.Proofs.Migration.Blocks
import EditorLink.Proofs.Tool.FrontEnds
import EditorLink.Proofs.Tool.Answers
import EditorLink.Proofs.Tool.Forwarding
import EditorLink.Proofs.Resource.ScriptUris
import EditorLink.Proofs.Session.Messages
import EditorLink.Proofs.Session.Writes
import EditorLink.Proofs.Resource.Contents
import EditorLink.Proofs.Session.Retries
import EditorLink.Proofs.Migration.Comparisons
import EditorLink.Proofs.Migration.DeclaredVariables
import EditorLink.Proofs.Migration.FixedScripts
import EditorLink.Proofs.Review.Places
import EditorLink.Proofs.Review.Scopes
import EditorLink.Proofs.Review.Verdicts
import EditorLink.Proofs.Number.Integers
import EditorLink.Proofs.Review.RepairOrder
import EditorLink.Proofs.Project.VersionLines
import EditorLink.Proofs.Text.Lines
import EditorLink.Proofs.Project.FeatureTags
import EditorLink.Proofs.Project.ConfigLines
import EditorLink.Proofs.Settings.Environments
