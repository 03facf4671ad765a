import ScillaLayout.Text.Alphabetic
import ScillaLayout.Text.Blank
import ScillaLayout.Text.Emoji
import ScillaLayout.Text.Numeric
import ScillaLayout.Text.Quoted
import ScillaLayout.Text.Uppercase
import ScillaLayout.Text.CellWidth
import ScillaLayout.Source.Excerpt
import ScillaLayout.Token.Kind
import ScillaLayout.Token.Basic
import ScillaLayout.Token.Vocabulary
import ScillaLayout.Token.Lexer
import ScillaLayout.Token.Lexing
import ScillaLayout.Layout.Log
import ScillaLayout.Layout.Lines
import ScillaLayout.Layout.Spacing
import ScillaLayout.Token.Sequence
import ScillaLayout.Layout.Format
import ScillaLayout.Json.Reader
import ScillaLayout.Error
import ScillaLayout.Config.Json
import ScillaLayout.Config.Toml
import ScillaLayout.Config.Yaml
import ScillaLayout.Config.File
import ScillaLayout.Config.Schema
import ScillaLayout.Command.Run
import ScillaLayout.Main
import ScillaLayout.Proofs.Lexing.Spelling
import ScillaLayout.Proofs.Lexing.Chain
import ScillaLayout.Proofs.Layout.Gap
import ScillaLayout.Proofs.Layout.Sight
import ScillaLayout.Proofs.Layout.Visit
import ScillaLayout.Proofs.Layout.Scene
import ScillaLayout.Proofs.Layout.Finish
import ScillaLayout.Proofs.Layout.Laid
import ScillaLayout.Proofs.Lexing.Seam
import ScillaLayout.Proofs.Formatting.Text
import ScillaLayout.Proofs.Formatting.Preservation
import ScillaLayout.Proofs.Formatting.Idempotence
import ScillaLayout.Proofs.Formatting.Canonical
import ScillaLayout.Proofs.Layout.Clause
import ScillaLayout.Proofs.Formatting.Independence
import ScillaLayout.Proofs.Lexing.Lossless
import ScillaLayout.Proofs.Formatting.Neighbours
import ScillaLayout.Proofs.Formatting.LineBreaks
import ScillaLayout.Proofs.Formatting.Blanks
import ScillaLayout.Proofs.Formatting.Tidiness
import ScillaLayout.Proofs.Formatting.Settings
import ScillaLayout.Proofs.Lexing.Locality
import ScillaLayout.Proofs.Formatting.Untouched
import ScillaLayout.Proofs.Layout.Nesting
import ScillaLayout.Proofs.Layout.State
import ScillaLayout.Proofs.Editing.Checked
import ScillaLayout.Proofs.Editing.Lines
import ScillaLayout.Proofs.Editing.Spacing
import ScillaLayout.Proofs.Editing.Walker
import ScillaLayout.Proofs.Editing.Rules
import ScillaLayout.Proofs.Formatting.Stability
import ScillaLayout.Proofs.Command.Files
import ScillaLayout.Proofs.Command.Switches
import ScillaLayout.Proofs.Command.Modes
import ScillaLayout.Proofs.Command.InPlace
import ScillaLayout.Proofs.Layout.Blocks
import ScillaLayout.Proofs.Layout.Alignment
import ScillaLayout.Proofs.Layout.Neutral
import ScillaLayout.Proofs.Layout.Bindings
import ScillaLayout.Proofs.Formatting.Fields
import ScillaLayout.Proofs.Lexing.Classes
import ScillaLayout.Proofs.Lexing.Places
import ScillaLayout.Proofs.Command.Paths
import ScillaLayout.Proofs.Command.Precedence
import ScillaLayout.Proofs.Config.Merging
import ScillaLayout.Proofs.Lexing.Dump
import ScillaLayout.Proofs.Editing.Visits
