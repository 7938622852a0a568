import TreeCheck.Disk.Listing
import TreeCheck.Disk.Machine
import TreeCheck.Main
import TreeCheck.Node.Build
import TreeCheck.Proofs.Blame
import TreeCheck.Proofs.ConfigProperties
import TreeCheck.Proofs.Exchange
import TreeCheck.Proofs.LogProperties
import TreeCheck.Proofs.Outlining
import TreeCheck.Proofs.Pruning
import TreeCheck.Proofs.RenamingProperties
import TreeCheck.Proofs.Repetition
import TreeCheck.Proofs.Retyping
import TreeCheck.Proofs.Rewriting
import TreeCheck.Proofs.ScriptProperties
import TreeCheck.Proofs.SessionProperties
import TreeCheck.Proofs.Shape
import TreeCheck.Proofs.TypingProperties
import TreeCheck.Proofs.Splicing
import TreeCheck.Proofs.Wrapping
import TreeCheck.Proofs.PathProperties
import TreeCheck.Proofs.DiskChanges
import TreeCheck.Proofs.CheckProperties
import TreeCheck.Proofs.InitProperties
import TreeCheck.Proofs.Defects
import TreeCheck.Proofs.Precedence
import TreeCheck.Proofs.TableHistory
import TreeCheck.Proofs.DeclarationForms
import TreeCheck.Proofs.Bounds
import TreeCheck.Proofs.ReportProperties
import TreeCheck.Proofs.SearchProperties
import TreeCheck.Proofs.Spelling
import TreeCheck.Proofs.ChainTypes
import TreeCheck.Proofs.Targets
import TreeCheck.Proofs.LostValues
import TreeCheck.Proofs.InitFailures
