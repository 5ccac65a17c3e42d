import SqlTemplate.Main
import SqlTemplate.Proofs.Basic
import SqlTemplate.Proofs.Acceptance
import SqlTemplate.Proofs.Part
import SqlTemplate.Proofs.Strings
import SqlTemplate.Proofs.Normal
import SqlTemplate.Proofs.Inlining
import SqlTemplate.Proofs.Source
import SqlTemplate.Proofs.Written
import SqlTemplate.Proofs.Numbering
import SqlTemplate.Proofs.QuestionMarks
import SqlTemplate.Proofs.Reports
import SqlTemplate.Proofs.Grammar
import SqlTemplate.Proofs.Lexemes
import SqlTemplate.Proofs.Partition
import SqlTemplate.Proofs.Layout
import SqlTemplate.Proofs.Spacing
import SqlTemplate.Proofs.Comments
import SqlTemplate.Proofs.Quotation
import SqlTemplate.Proofs.Nesting
import SqlTemplate.Proofs.Dashes
import SqlTemplate.Proofs.Junctions
import SqlTemplate.Proofs.Lines
import SqlTemplate.Proofs.Positions
import SqlTemplate.Proofs.Excerpts
import SqlTemplate.Proofs.Stacking
import SqlTemplate.Proofs.Additions
import SqlTemplate.Proofs.Renumbering
import SqlTemplate.Proofs.Calls
import SqlTemplate.Proofs.Dependence
import SqlTemplate.Proofs.Words
import SqlTemplate.Proofs.Limits
import SqlTemplate.Proofs.Ways
import SqlTemplate.Proofs.Loops
import SqlTemplate.Proofs.Scans
import SqlTemplate.Proofs.Cursors
import SqlTemplate.Proofs.Colons
import SqlTemplate.Proofs.Merging
import SqlTemplate.Proofs.Labels
import SqlTemplate.Proofs.Markers
import SqlTemplate.Proofs.Logs
import SqlTemplate.Proofs.DryRuns
import SqlTemplate.Proofs.ListBindings
import SqlTemplate.Proofs.Embedded
import SqlTemplate.Proofs.Literals
import SqlTemplate.Proofs.Scalars
import SqlTemplate.Proofs.Names
import SqlTemplate.Proofs.Blocks
