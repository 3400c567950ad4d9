import ShapedJson.Answer.Decode
import ShapedJson.Answer.Fence
import ShapedJson.Failure
import ShapedJson.Fields
import ShapedJson.Gathered
import ShapedJson.Generation.Attempt
import ShapedJson.Generation.Generator
import ShapedJson.Generation.Loop
import ShapedJson.Generation.Patience
import ShapedJson.Generation.Provider
import ShapedJson.Generation.Raised
import ShapedJson.Json.Basic
import ShapedJson.Json.Fault
import ShapedJson.Json.Inline
import ShapedJson.Json.Numeral
import ShapedJson.Json.Reader
import ShapedJson.Json.Writer
import ShapedJson.Log
import ShapedJson.Number.Basic
import ShapedJson.Number.Binary64
import ShapedJson.Prompt
import ShapedJson.Service.Envelope
import ShapedJson.Service.Extraction
import ShapedJson.Service.Request
import ShapedJson.Service.Response
import ShapedJson.Service.Routes
import ShapedJson.Service.Target
import ShapedJson.Settings.Basic
import ShapedJson.Settings.Liberal
import ShapedJson.Settings.Load
import ShapedJson.Shape.Basic
import ShapedJson.Shape.Check
import ShapedJson.Shape.Compile
import ShapedJson.Shape.Description
import ShapedJson.Shape.Schema
import ShapedJson.Shape.Stack
import ShapedJson.Shape.Validator
import ShapedJson.Shape.Violation
import ShapedJson.Text.Basic
import ShapedJson.Text.Blank
import ShapedJson.Text.Encodable
import ShapedJson.Text.Octets
import ShapedJson.Text.Printable
import ShapedJson.Text.Quoted
import ShapedJson.Proofs.Text.Decimal
import ShapedJson.Proofs.Shape.Validation
import ShapedJson.Proofs.Text.Encodable
import ShapedJson.Proofs.Shape.Names
import ShapedJson.Proofs.Generation.Replies
import ShapedJson.Proofs.Generation.Runs
import ShapedJson.Proofs.Json.Numerals
import ShapedJson.Proofs.Json.Strings
import ShapedJson.Proofs.Json.Grammar
import ShapedJson.Proofs.Json.Reading
import ShapedJson.Proofs.Json.Escapes
import ShapedJson.Proofs.Json.Traits
import ShapedJson.Proofs.Number.Written
import ShapedJson.Proofs.Json.Writing
import ShapedJson.Proofs.Json.Denoted
import ShapedJson.Proofs.Text.Inline
import ShapedJson.Proofs.Text.Utf8
import ShapedJson.Proofs.Json.Faults
import ShapedJson.Proofs.Failures
import ShapedJson.Proofs.Failures.Wording
import ShapedJson.Proofs.Service.Responses
import ShapedJson.Proofs.Settings
import ShapedJson.Proofs.Shape.Traits
import ShapedJson.Proofs.Service.Extraction
import ShapedJson.Proofs.Answer.Decoding
import ShapedJson.Proofs.Generation.Values
import ShapedJson.Proofs.Service.Answers
import ShapedJson.Proofs.Service.Blocked
import ShapedJson.Proofs.Text.Trimming
import ShapedJson.Proofs.Fields
import ShapedJson.Proofs.Json.Extent
import ShapedJson.Proofs.Answer.Fences
import ShapedJson.Proofs.Generation.Attempts
import ShapedJson.Proofs.Answer.Truncation
import ShapedJson.Proofs.Answer.Presentation
import ShapedJson.Proofs.Json.Nesting
import ShapedJson.Proofs.Answer.Accepted
import ShapedJson.Proofs.Json.Rearranged
import ShapedJson.Proofs.Shape.Alike
import ShapedJson.Proofs.Shape.Separation
import ShapedJson.Proofs.Shape.Reordering
import ShapedJson.Proofs.Shape.Agreement
import ShapedJson.Proofs.Shape.Described
import ShapedJson.Proofs.Text.Lines
import ShapedJson.Proofs.Json.Indented
import ShapedJson.Proofs.Prompts
import ShapedJson.Proofs.Generation.Simulation
import ShapedJson.Proofs.Generation.Composition
import ShapedJson.Proofs.Generation.Providers
import ShapedJson.Proofs.Shape.Positions
import ShapedJson.Proofs.Shape.Overwriting
import ShapedJson.Proofs.Shape.Nodes
import ShapedJson.Proofs.Shape.Edits
import ShapedJson.Proofs.Shape.Limits
import ShapedJson.Proofs.Shape.Compilation
import ShapedJson.Proofs.Shape.Narrowing
import ShapedJson.Proofs.Answer.Checked
import ShapedJson.Proofs.Text.Patterns
import ShapedJson.Proofs.Answer.FencePattern
import ShapedJson.Proofs.Generation.Stripping
import ShapedJson.Proofs.Settings.Waits
import ShapedJson.Proofs.Service.Configured
import ShapedJson.Proofs.Generation.Standings
import ShapedJson.Proofs.Generation.Records
