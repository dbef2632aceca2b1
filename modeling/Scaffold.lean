import Scaffold.Answer
import Scaffold.Checkout
import Scaffold.Command
import Scaffold.Copy
import Scaffold.Decimal.Binary
import Scaffold.Decimal.Fixed
import Scaffold.Decimal.Power
import Scaffold.Decimal.Reading
import Scaffold.Decimal.Shortest
import Scaffold.Disk
import Scaffold.Disk.Action
import Scaffold.Disk.Fault
import Scaffold.Disk.Image
import Scaffold.Disk.Listing
import Scaffold.Disk.Resolve
import Scaffold.Disk.Walk
import Scaffold.Entries
import Scaffold.Failure
import Scaffold.Fill
import Scaffold.Gate
import Scaffold.Gate.Context
import Scaffold.Gate.Operators
import Scaffold.Host
import Scaffold.Host.Address
import Scaffold.Host.Direction
import Scaffold.Host.Domain
import Scaffold.Interview
import Scaffold.Interview.Script
import Scaffold.Main
import Scaffold.Manifest
import Scaffold.Path
import Scaffold.Product
import Scaffold.Program
import Scaffold.Project
import Scaffold.Proofs.Checkout.Cloned
import Scaffold.Proofs.Checkout.Cloning
import Scaffold.Proofs.Checkout.Course
import Scaffold.Proofs.Checkout.Descending
import Scaffold.Proofs.Checkout.Entering
import Scaffold.Proofs.Checkout.Incremental
import Scaffold.Proofs.Checkout.Intact
import Scaffold.Proofs.Checkout.Nesting
import Scaffold.Proofs.Checkout.Sites
import Scaffold.Proofs.Checkout.Sparing
import Scaffold.Proofs.Checkout.Stale
import Scaffold.Proofs.Checkout.Standing
import Scaffold.Proofs.Copy.Again
import Scaffold.Proofs.Copy.Ending
import Scaffold.Proofs.Copy.Keeping
import Scaffold.Proofs.Copy.Mount
import Scaffold.Proofs.Copy.Order
import Scaffold.Proofs.Copy.Outcome
import Scaffold.Proofs.Copy.Overlay
import Scaffold.Proofs.Copy.Pass
import Scaffold.Proofs.Copy.Placing
import Scaffold.Proofs.Copy.Reading
import Scaffold.Proofs.Copy.Site
import Scaffold.Proofs.Disk.Changes
import Scaffold.Proofs.Disk.Layout
import Scaffold.Proofs.Disk.Lookup
import Scaffold.Proofs.Disk.Loop
import Scaffold.Proofs.Disk.MakeDirs
import Scaffold.Proofs.Disk.Passing
import Scaffold.Proofs.Disk.Proper
import Scaffold.Proofs.Disk.Shape
import Scaffold.Proofs.Disk.Storing
import Scaffold.Proofs.Disk.Tour
import Scaffold.Proofs.Disk.Walk
import Scaffold.Proofs.Disk.Way
import Scaffold.Proofs.Fill.Failed
import Scaffold.Proofs.Fill.Form
import Scaffold.Proofs.Fill.Order
import Scaffold.Proofs.Fill.Pass
import Scaffold.Proofs.Fill.Reference
import Scaffold.Proofs.Gate.Absent
import Scaffold.Proofs.Gate.Literals
import Scaffold.Proofs.Gate.Spelling
import Scaffold.Proofs.Gate.Words
import Scaffold.Proofs.Interview.Course
import Scaffold.Proofs.Interview.RawName
import Scaffold.Proofs.Interview.Stages
import Scaffold.Proofs.Interview.Store
import Scaffold.Proofs.Interview.Transcript
import Scaffold.Proofs.Manifest.Accepted
import Scaffold.Proofs.Manifest.Forms
import Scaffold.Proofs.Manifest.Texts
import Scaffold.Proofs.Path.Contained
import Scaffold.Proofs.Path.Destination
import Scaffold.Proofs.Path.Normal
import Scaffold.Proofs.Path.Parts
import Scaffold.Proofs.Product.Home
import Scaffold.Proofs.Project.Again
import Scaffold.Proofs.Project.Apart
import Scaffold.Proofs.Project.Containment
import Scaffold.Proofs.Project.Guard
import Scaffold.Proofs.Question.Defaults
import Scaffold.Proofs.Question.Transform
import Scaffold.Proofs.Repository.Ancestry
import Scaffold.Proofs.Repository.Checkout
import Scaffold.Proofs.Repository.Creating
import Scaffold.Proofs.Repository.Depot
import Scaffold.Proofs.Repository.Files
import Scaffold.Proofs.Repository.Leading
import Scaffold.Proofs.Repository.Made
import Scaffold.Proofs.Repository.Pull
import Scaffold.Proofs.Repository.Reading
import Scaffold.Proofs.Repository.Saving
import Scaffold.Proofs.Repository.Showing
import Scaffold.Proofs.Repository.Submodule
import Scaffold.Proofs.Repository.Way
import Scaffold.Proofs.Repository.WorkingTree
import Scaffold.Proofs.Resolver.Canonical
import Scaffold.Proofs.Run.Failed
import Scaffold.Proofs.Run.Party
import Scaffold.Proofs.Stencil.Form
import Scaffold.Proofs.Stencil.Lexemes
import Scaffold.Proofs.Stencil.Lookup
import Scaffold.Proofs.Text.Mapping
import Scaffold.Proofs.Text.Pieces
import Scaffold.Proofs.Text.Title
import Scaffold.Proofs.Yaml.Frames
import Scaffold.Proofs.Yaml.Numeral
import Scaffold.Proofs.Yaml.Record
import Scaffold.Proofs.Yaml.Spelling
import Scaffold.Question
import Scaffold.Question.Decode
import Scaffold.Question.Transform
import Scaffold.Question.Validation
import Scaffold.Repository
import Scaffold.Repository.Address
import Scaffold.Repository.Author
import Scaffold.Repository.Commit
import Scaffold.Repository.Depot
import Scaffold.Repository.Files
import Scaffold.Repository.Nested
import Scaffold.Repository.Pull
import Scaffold.Repository.Settings
import Scaffold.Repository.Submodule
import Scaffold.Repository.WorkingTree
import Scaffold.Resolver
import Scaffold.Run
import Scaffold.Shell
import Scaffold.Shell.Script
import Scaffold.Shell.Tool
import Scaffold.Stencil.Args
import Scaffold.Stencil.Arithmetic
import Scaffold.Stencil.Display
import Scaffold.Stencil.Fault
import Scaffold.Stencil.Filter
import Scaffold.Stencil.Machine
import Scaffold.Stencil.Pattern
import Scaffold.Stencil.Predicate
import Scaffold.Stencil.Run
import Scaffold.Stencil.Token
import Scaffold.Stencil.Token.Lexer
import Scaffold.Stencil.Token.Literal
import Scaffold.Stencil.Tree
import Scaffold.Stencil.Tree.Cursor
import Scaffold.Stencil.Tree.Expression
import Scaffold.Stencil.Tree.Names
import Scaffold.Stencil.Tree.Reader
import Scaffold.Stencil.Value
import Scaffold.Template
import Scaffold.Terminal
import Scaffold.Terminal.Editor
import Scaffold.Terminal.Key
import Scaffold.Terminal.Line
import Scaffold.Terminal.Widget
import Scaffold.Text.Case
import Scaffold.Text.CaseTable
import Scaffold.Text.Digest
import Scaffold.Text.Invisible
import Scaffold.Text.Latin
import Scaffold.Text.Quoted
import Scaffold.Text.Ranges
import Scaffold.Text.Slug
import Scaffold.Text.Split
import Scaffold.Yaml.Decode
import Scaffold.Yaml.Decode.Place
import Scaffold.Yaml.Decode.Value
import Scaffold.Yaml.Fault
import Scaffold.Yaml.Node
import Scaffold.Yaml.Node.Reader
import Scaffold.Yaml.Node.Unfold
import Scaffold.Yaml.Scalar
import Scaffold.Yaml.Token
import Scaffold.Yaml.Token.Cursor
import Scaffold.Yaml.Token.Lexer
import Scaffold.Yaml.Token.Scalar
import Scaffold.Yaml.Token.Tag
import Scaffold.Yaml.Value
