import PageCheck.Json.Reader
import PageCheck.Main
import PageCheck.Proofs.Dispatch.Agreement
import PageCheck.Proofs.Dispatch.Findings
import PageCheck.Proofs.Dispatch.Tokens
import PageCheck.Proofs.Dispatch.Supersession
import PageCheck.Service.Decode
import PageCheck.Proofs.Batch.Basic
import PageCheck.Proofs.Batch.Independence
import PageCheck.Proofs.Batch.Calls
import PageCheck.Proofs.Program.ExitCode
import PageCheck.Proofs.Json.Literal
import PageCheck.Proofs.Json.Machine
import PageCheck.Proofs.Json.RoundTrip
import PageCheck.Proofs.Json.Sequence
import PageCheck.Proofs.Panel.RoundTrip
import PageCheck.Proofs.Json.Spelling
import PageCheck.Proofs.Service.Spelling
import PageCheck.Proofs.Text.Bytes
import PageCheck.Proofs.Text.Pieces
import PageCheck.Proofs.Text.LineIndex
import PageCheck.Proofs.Document.Lines
import PageCheck.Proofs.Report.Preview
import PageCheck.Proofs.Report.LineEnds
import PageCheck.Proofs.Dispatch.Failures
import PageCheck.Proofs.Batch.Expansion
import PageCheck.Proofs.FileTree.Parents
import PageCheck.Proofs.Settings.Discovery
import PageCheck.Proofs.Text.Styled
import PageCheck.Proofs.Text.Appending
import PageCheck.Proofs.Panel.Render
import PageCheck.Proofs.Panel.Lines
import PageCheck.Proofs.FileTree.Places
import PageCheck.Proofs.FileTree.Following
import PageCheck.Proofs.FileTree.DisplayPath
import PageCheck.Proofs.Settings.Naming
import PageCheck.Proofs.Target.Scope
import PageCheck.Proofs.CommandLine.Spelling
import PageCheck.Proofs.Settings.Precedence
import PageCheck.Proofs.Report.Summary
