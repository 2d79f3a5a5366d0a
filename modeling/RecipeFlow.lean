import RecipeFlow.Main
import RecipeFlow.Cli.Run
import RecipeFlow.Cli.Verbosity
import RecipeFlow.Engine.Settings
import RecipeFlow.Engine.Simulated
import RecipeFlow.Engine.Snapshot
import RecipeFlow.Files.Tree
import RecipeFlow.Recipe.Validate
import RecipeFlow.Run.Recipe
import RecipeFlow.Run.World
import RecipeFlow.Proofs.Run.Transcript
import RecipeFlow.Proofs.Run.Watching
import RecipeFlow.Proofs.Graph.Wiring
import RecipeFlow.Proofs.Compile.Partitions
import RecipeFlow.Proofs.Compile.Pipeline
import RecipeFlow.Proofs.Run.Gate
import RecipeFlow.Proofs.Run.Submission
import RecipeFlow.Proofs.Run.Volume
import RecipeFlow.Proofs.Shell.Word
import RecipeFlow.Proofs.Compile.Script
import RecipeFlow.Proofs.Compile.Coverage
import RecipeFlow.Proofs.Json.Path
import RecipeFlow.Proofs.Compile.Names
import RecipeFlow.Proofs.Graph.Links
import RecipeFlow.Proofs.Compile.Links
import RecipeFlow.Proofs.Engine.Document
import RecipeFlow.Proofs.Engine.Closed
import RecipeFlow.Proofs.Graph.Pipeline
import RecipeFlow.Proofs.Graph.Cycles
import RecipeFlow.Proofs.Compile.Layout
import RecipeFlow.Proofs.Text.Split
import RecipeFlow.Proofs.Text.Lines
import RecipeFlow.Proofs.Files.Resolve
import RecipeFlow.Proofs.Files.Inside
import RecipeFlow.Proofs.Recipe.Commands
import RecipeFlow.Proofs.Compile.Settings
import RecipeFlow.Proofs.Engine.Address
import RecipeFlow.Proofs.Recipe.Identifier
import RecipeFlow.Proofs.Volume.Isolation
import RecipeFlow.Proofs.Shell.Pattern
import RecipeFlow.Proofs.Compile.Directories
import RecipeFlow.Proofs.Recipe.Prepared
import RecipeFlow.Proofs.Compile.Rejection
import RecipeFlow.Proofs.Compile.Effects
import RecipeFlow.Proofs.Run.Faults
import RecipeFlow.Proofs.Run.Rendering
import RecipeFlow.Proofs.Run.Polling
import RecipeFlow.Proofs.Shell.Commands
import RecipeFlow.Proofs.Volume.Mounts
import RecipeFlow.Proofs.Volume.Locations
import RecipeFlow.Proofs.Run.Session
import RecipeFlow.Proofs.Run.Deposit
import RecipeFlow.Proofs.Recipe.Places
import RecipeFlow.Proofs.Run.Interleaving
import RecipeFlow.Proofs.Engine.Executions
import RecipeFlow.Proofs.Run.Concurrency
import RecipeFlow.Proofs.Shell.AndList
import RecipeFlow.Proofs.Compile.Fetching
import RecipeFlow.Proofs.Compile.Copies
import RecipeFlow.Proofs.Url.Segments
import RecipeFlow.Proofs.Text.Utf8
import RecipeFlow.Proofs.Text.Digits
import RecipeFlow.Proofs.Url.Encoding
import RecipeFlow.Proofs.Dataset.Address
import RecipeFlow.Proofs.Json.Reading
import RecipeFlow.Proofs.Dataset.Listing
import RecipeFlow.Proofs.Recipe.References
import RecipeFlow.Proofs.Compile.Staging
import RecipeFlow.Proofs.Yaml.Numeral
import RecipeFlow.Proofs.Yaml.Meaning
import RecipeFlow.Proofs.Schema.Members
import RecipeFlow.Proofs.Recipe.Writable
import RecipeFlow.Proofs.Recipe.Written
import RecipeFlow.Proofs.Partition
import RecipeFlow.Proofs.Compile.FileList
import RecipeFlow.Proofs.Run.Cleanup
import RecipeFlow.Proofs.Engine.Outputs
import RecipeFlow.Proofs.Engine.Independence
