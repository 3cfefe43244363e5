import Repartee.Command.Arguments
import Repartee.Command.Report
import Repartee.Command.Shell
import Repartee.Database
import Repartee.Engine.Basic
import Repartee.Engine.Session
import Repartee.Error
import Repartee.Handler
import Repartee.Main
import Repartee.Match
import Repartee.Pattern.Basic
import Repartee.Pattern.Bindings
import Repartee.Pattern.Compile
import Repartee.Pattern.Error
import Repartee.Pattern.Parse
import Repartee.Pattern.Regex.Basic
import Repartee.Pattern.Regex.Factor
import Repartee.Pattern.Regex.Match
import Repartee.Pattern.Regex.Size
import Repartee.Pattern.Token
import Repartee.Pattern.Tree
import Repartee.Pattern.Wildcard
import Repartee.Pattern.WordClass
import Repartee.Proofs.Alternates
import Repartee.Proofs.Command.Arguments
import Repartee.Proofs.Engine.Calls
import Repartee.Proofs.Engine.Checks
import Repartee.Proofs.Engine.DepthLimit
import Repartee.Proofs.Engine.Duplicates
import Repartee.Proofs.Engine.Expansion
import Repartee.Proofs.Engine.Failures
import Repartee.Proofs.Engine.Handlers
import Repartee.Proofs.Engine.History
import Repartee.Proofs.Engine.Independence
import Repartee.Proofs.Engine.Isolation
import Repartee.Proofs.Engine.Loading
import Repartee.Proofs.Engine.Memory
import Repartee.Proofs.Engine.Preparation
import Repartee.Proofs.Engine.Reachable
import Repartee.Proofs.Engine.Reloading
import Repartee.Proofs.Engine.Runs
import Repartee.Proofs.Engine.Searches
import Repartee.Proofs.Engine.Selection
import Repartee.Proofs.Engine.Splicing
import Repartee.Proofs.Engine.Topics
import Repartee.Proofs.Engine.Tracing
import Repartee.Proofs.Entries
import Repartee.Proofs.Except
import Repartee.Proofs.Handling
import Repartee.Proofs.Normalization
import Repartee.Proofs.Numbering
import Repartee.Proofs.Offsets
import Repartee.Proofs.Pattern.Acceptance
import Repartee.Proofs.Pattern.Canonical
import Repartee.Proofs.Pattern.Completeness
import Repartee.Proofs.Pattern.Concatenation
import Repartee.Proofs.Pattern.Counts
import Repartee.Proofs.Pattern.Deferral
import Repartee.Proofs.Pattern.Dependence
import Repartee.Proofs.Pattern.Division
import Repartee.Proofs.Pattern.Flat
import Repartee.Proofs.Pattern.Grammar
import Repartee.Proofs.Pattern.Items
import Repartee.Proofs.Pattern.Language
import Repartee.Proofs.Pattern.Lexeme
import Repartee.Proofs.Pattern.Lexing
import Repartee.Proofs.Pattern.Literal
import Repartee.Proofs.Pattern.Markers
import Repartee.Proofs.Pattern.Marks
import Repartee.Proofs.Pattern.Memos
import Repartee.Proofs.Pattern.Parts
import Repartee.Proofs.Pattern.Places
import Repartee.Proofs.Pattern.Recognition
import Repartee.Proofs.Pattern.References
import Repartee.Proofs.Pattern.Regex.Factor
import Repartee.Proofs.Pattern.Regex.Matches
import Repartee.Proofs.Pattern.Regex.Standing
import Repartee.Proofs.Pattern.Restriction
import Repartee.Proofs.Pattern.Shape
import Repartee.Proofs.Pattern.Soundness
import Repartee.Proofs.Pattern.Spans
import Repartee.Proofs.Pattern.Targets
import Repartee.Proofs.Pattern.Tokens
import Repartee.Proofs.Pattern.Widening
import Repartee.Proofs.Placeholders
import Repartee.Proofs.Ranking
import Repartee.Proofs.Reference
import Repartee.Proofs.Registration
import Repartee.Proofs.Scripts.Failures
import Repartee.Proofs.Scripts.Frames
import Repartee.Proofs.Scripts.Interlock
import Repartee.Proofs.Scripts.Rules
import Repartee.Proofs.Scripts.Templates
import Repartee.Proofs.Specificity
import Repartee.Proofs.Substitutions
import Repartee.Proofs.Table
import Repartee.Proofs.Target
import Repartee.Proofs.Template
import Repartee.Proofs.Text.Layout
import Repartee.Proofs.Text.Lower
import Repartee.Proofs.Text.Stretches
import Repartee.Proofs.Text.Words
import Repartee.Proofs.Unicode.Classes
import Repartee.Random
import Repartee.Reference
import Repartee.Reply
import Repartee.Rule
import Repartee.Script
import Repartee.Scripts.Builtin
import Repartee.Scripts.DanceFloor
import Repartee.Scripts.HokeyPokey
import Repartee.Scripts.Tour
import Repartee.Scripts.Waterworks
import Repartee.Table
import Repartee.Target
import Repartee.Template
import Repartee.Text.Bytes
import Repartee.Text.Decimal
import Repartee.Text.Duration
import Repartee.Text.Lower
import Repartee.Text.Quoted
import Repartee.Text.Words
import Repartee.Topic
import Repartee.Unicode.Blank
import Repartee.Unicode.Casing
import Repartee.Unicode.Decimal
import Repartee.Unicode.Letter
import Repartee.Unicode.Lowercase
import Repartee.Unicode.Ranges
import Repartee.Unicode.Visible
import Repartee.Unicode.WordChar
import Repartee.User
import Repartee.Value
