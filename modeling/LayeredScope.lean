import LayeredScope.Failure
import LayeredScope.Entries
import LayeredScope.Binary64.Layout
import LayeredScope.Reserved
import LayeredScope.Value
import LayeredScope.Document.Block
import LayeredScope.Stack
import LayeredScope.Object
import LayeredScope.World
import LayeredScope.Run
import LayeredScope.Session
import LayeredScope.World.Display
import LayeredScope.World.Diagnostic
import LayeredScope.Dispatch
import LayeredScope.Attribute
import LayeredScope.Stack.Search
import LayeredScope.OnAccess
import LayeredScope.Stack.Field
import LayeredScope.Argument
import LayeredScope.Document.Rendering
import LayeredScope.Document.Template
import LayeredScope.Host.Script
import LayeredScope.Host.Answer
import LayeredScope.Proofs.Law
import LayeredScope.Proofs.Walk
import LayeredScope.Proofs.Law.Library
import LayeredScope.Proofs.Law.Programs
import LayeredScope.Proofs.Fuel
import LayeredScope.Proofs.Preservation
import LayeredScope.Proofs.Restoration
import LayeredScope.Proofs.Growth
import LayeredScope.Proofs.HostFree
import LayeredScope.Proofs.HostFree.Scope
import LayeredScope.Proofs.HostFree.Meaning
import LayeredScope.Proofs.HostFree.Rendering
import LayeredScope.Proofs.HostFree.Templates
import LayeredScope.Proofs.Termination
import LayeredScope.Proofs.Layering
import LayeredScope.Proofs.Misses
import LayeredScope.Proofs.Searching
import LayeredScope.Proofs.Views
import LayeredScope.Proofs.Views.Journal
import LayeredScope.Proofs.Views.Memory
import LayeredScope.Proofs.Views.Stability
import LayeredScope.Proofs.Enclosures
import LayeredScope.Proofs.Standalone
import LayeredScope.Proofs.BodyScope
import LayeredScope.Proofs.Views.InCharge
import LayeredScope.Proofs.Views.Denial
import LayeredScope.Proofs.HostFree.Depth
import LayeredScope.Proofs.Inlining
import LayeredScope.Proofs.Repetition
import LayeredScope.Proofs.Origins
import LayeredScope.Proofs.Reaching
import LayeredScope.Proofs.Upholding
import LayeredScope.Proofs.Conditions
import LayeredScope.Proofs.Unfolding
import LayeredScope.Proofs.Marks
import LayeredScope.Proofs.Reentrancy
import LayeredScope.Proofs.Choices
import LayeredScope.Proofs.Containment
import LayeredScope.Proofs.Ownership
import LayeredScope.Proofs.Inspection
import LayeredScope.Proofs.Knots
import LayeredScope.Proofs.Composition
import LayeredScope.Proofs.Fields
import LayeredScope.Proofs.Invocations
import LayeredScope.Proofs.Bundles
import LayeredScope.Proofs.Equality
import LayeredScope.Proofs.Totals
import LayeredScope.Proofs.Listing
import LayeredScope.Proofs.AttributePaths
import LayeredScope.Proofs.Popping
import LayeredScope.Proofs.Configuration
