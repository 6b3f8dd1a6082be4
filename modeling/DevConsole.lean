import DevConsole.Frame
import DevConsole.Query.Table
import DevConsole.Config.Gap
import DevConsole.Config.Quoted
import DevConsole.Text.Identifier
import DevConsole.Config.Number
import DevConsole.Config.Value
import DevConsole.Proofs.Query.Grammar
import DevConsole.Proofs.Query.Reading
import DevConsole.Proofs.Query.Unplaced
import DevConsole.Proofs.Query.Steps
import DevConsole.Proofs.Query.Lexing
import DevConsole.Proofs.Query.Language
import DevConsole.Proofs.Query.RoundTrip
import DevConsole.Proofs.Query.Meaning
import DevConsole.Proofs.Query.Linking
import DevConsole.Proofs.Query.TableWalk
import DevConsole.Proofs.Console.Recursion
import DevConsole.Proofs.Console.Reports
import DevConsole.Proofs.Console.Locked
import DevConsole.Proofs.Console.OutOfReach
import DevConsole.Proofs.Console.Listings
import DevConsole.Proofs.Console.Inside
import DevConsole.Proofs.Console.Scripts
import DevConsole.Proofs.Console.Startup
import DevConsole.Proofs.Command.Keys
import DevConsole.Proofs.Command.AliasNames
import DevConsole.Proofs.Config.Restoring
import DevConsole.Proofs.Config.Marking
import DevConsole.Proofs.Config.WritingBack
import DevConsole.Proofs.Console.Caches
import DevConsole.Proofs.Console.Events
import DevConsole.Proofs.Console.Forwarding
import DevConsole.Proofs.Query.Regrouping
import DevConsole.Proofs.Console.Refusals
import DevConsole.Proofs.Console.StoredQueries
import DevConsole.Proofs.Console.BoundedValues
import DevConsole.Proofs.Query.Completing
import DevConsole.Proofs.Query.Traversal
import DevConsole.Proofs.Console.Cycling
import DevConsole.Proofs.Query.FaultSpans
import DevConsole.Proofs.Console.Releases
import DevConsole.Proofs.Command.PairedAliases
import DevConsole.Proofs.Query.Guarded
import DevConsole.Proofs.Console.Warnings
import DevConsole.Proofs.Command.NameScan
