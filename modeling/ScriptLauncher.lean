import ScriptLauncher.Command.Shell
import ScriptLauncher.Main
import ScriptLauncher.Proofs.Build.Cleanup
import ScriptLauncher.Proofs.Build.Outcome
import ScriptLauncher.Proofs.Script.Scaffold
import ScriptLauncher.Proofs.Build.Sources
import ScriptLauncher.Proofs.Script.Recovery
import ScriptLauncher.Proofs.Build.DryRun
import ScriptLauncher.Proofs.Build.Concurrency
import ScriptLauncher.Proofs.Build.Keeping
import ScriptLauncher.Proofs.Build.Removal
import ScriptLauncher.Proofs.Build.Flags
import ScriptLauncher.Proofs.Build.Footprint
import ScriptLauncher.Proofs.CommandLine.Routes
import ScriptLauncher.Proofs.CommandLine.Status
import ScriptLauncher.Proofs.Command.Reports
import ScriptLauncher.Proofs.Artifact.Tries
import ScriptLauncher.Proofs.Artifact.Obstacles
import ScriptLauncher.Proofs.Build.Writing
import ScriptLauncher.Proofs.Build.Documented
import ScriptLauncher.Proofs.Command.Success
import ScriptLauncher.Proofs.Command.Output
import ScriptLauncher.Proofs.Command.Substitution
import ScriptLauncher.Proofs.Command.Formatting
import ScriptLauncher.Proofs.Artifact.Containment
import ScriptLauncher.Proofs.Build.Order
import ScriptLauncher.Proofs.Build.Invocation
import ScriptLauncher.Proofs.CommandLine.Verdict
import ScriptLauncher.Proofs.CommandLine.Inline
import ScriptLauncher.Proofs.Script.NormalForm
import ScriptLauncher.Proofs.Script.Stages
import ScriptLauncher.Proofs.Host.Questions
import ScriptLauncher.Proofs.CommandLine.Intake
