import XmlBinding.Binding.Builtin
import XmlBinding.Binding.Catalog
import XmlBinding.Binding.Decode
import XmlBinding.Binding.Descriptor
import XmlBinding.Binding.Encode
import XmlBinding.Binding.Type
import XmlBinding.Bundle.Basic
import XmlBinding.Bundle.Disk
import XmlBinding.Bundle.Path
import XmlBinding.Bundle.Schema
import XmlBinding.Bundle.Store
import XmlBinding.Calendar.Date
import XmlBinding.Calendar.DateTime
import XmlBinding.Calendar.Duration
import XmlBinding.Calendar.Time
import XmlBinding.Calendar.Zone
import XmlBinding.Context.Basic
import XmlBinding.Context.Marshal
import XmlBinding.Context.Unmarshal
import XmlBinding.Conversion.Converter
import XmlBinding.Conversion.Diagnostic
import XmlBinding.Conversion.Generated
import XmlBinding.Conversion.Host
import XmlBinding.Conversion.Input
import XmlBinding.Conversion.Output
import XmlBinding.Conversion.Structure
import XmlBinding.Conversion.Table
import XmlBinding.Document.Encoding
import XmlBinding.Document.Event
import XmlBinding.Document.Markup.Char
import XmlBinding.Document.Markup.Reference
import XmlBinding.Document.Markup.Token
import XmlBinding.Document.Octets
import XmlBinding.Document.Reader
import XmlBinding.Document.Scope
import XmlBinding.Document.Tree
import XmlBinding.Document.Writer
import XmlBinding.Error
import XmlBinding.Json.Basic
import XmlBinding.Json.Numeral
import XmlBinding.Json.Printer
import XmlBinding.Json.Reader
import XmlBinding.Json.Text
import XmlBinding.Lexical.Codec
import XmlBinding.Lexical.Error
import XmlBinding.Lexical.Space
import XmlBinding.Lexical.Text
import XmlBinding.Name
import XmlBinding.Number.Binary.Basic
import XmlBinding.Number.Binary.Decimal
import XmlBinding.Number.Decimal
import XmlBinding.Number.Integer
import XmlBinding.Number.Numeral
import XmlBinding.Proofs.Context.Generated
import XmlBinding.Proofs.Conversion.Output
import XmlBinding.Proofs.Conversion.Run
import XmlBinding.Proofs.Conversion.Structure
import XmlBinding.Proofs.Document.Nesting
import XmlBinding.Proofs.Document.Scope
import XmlBinding.Proofs.Lexical.Codec
import XmlBinding.Proofs.Lexical.Name
import XmlBinding.Proofs.Marshal.Content
import XmlBinding.Proofs.Marshal.Document
import XmlBinding.Proofs.Marshal.Element
import XmlBinding.Proofs.Marshal.Rendering
import XmlBinding.Proofs.Marshal.Root
import XmlBinding.Proofs.RoundTrip.Conforming
import XmlBinding.Proofs.RoundTrip.Document
import XmlBinding.Proofs.RoundTrip.Element
import XmlBinding.Proofs.RoundTrip.Fields
import XmlBinding.Proofs.RoundTrip.Parts
import XmlBinding.Proofs.RoundTrip.Reading
import XmlBinding.Proofs.RoundTrip.Steps
import XmlBinding.Proofs.RoundTrip.Writing
import XmlBinding.Proofs.Unmarshal.Content
import XmlBinding.Proofs.Unmarshal.Sound
import XmlBinding.Proofs.Unmarshal.Soundness
import XmlBinding.Proofs.Value
import XmlBinding.Session
import XmlBinding.Text.Blank
import XmlBinding.Text.Letter
import XmlBinding.Text.Split
import XmlBinding.Text.Utf16
import XmlBinding.Text.Utf8
import XmlBinding.Value
import XmlBinding.Proofs.Document.Prefix
import XmlBinding.Proofs.Document.Written
import XmlBinding.Proofs.Document.Faithful
import XmlBinding.Proofs.Document.Content
import XmlBinding.Proofs.Document.Legible
import XmlBinding.Proofs.Document.Markup.Lexer
import XmlBinding.Proofs.Document.ReadBack
import XmlBinding.Proofs.Document.Reading
import XmlBinding.Proofs.Document.Reread
import XmlBinding.Proofs.Document.Characters
import XmlBinding.Proofs.Lexical.Print
import XmlBinding.Proofs.Marshal.Ordinary
import XmlBinding.Proofs.Marshal.Readable
import XmlBinding.Proofs.Document.Balance
import XmlBinding.Proofs.Unmarshal.Passing
import XmlBinding.Proofs.Unmarshal.Element
import XmlBinding.Proofs.Unmarshal.InStep
import XmlBinding.Proofs.Unmarshal.Discipline
import XmlBinding.Proofs.Marshal.InStep
import XmlBinding.Proofs.Context.Strict
import XmlBinding.Proofs.Unmarshal.Whole
import XmlBinding.Proofs.Unmarshal.Lenient
import XmlBinding.Proofs.Conversion.Gathered
import XmlBinding.Proofs.Unmarshal.Fieldwise
import XmlBinding.Proofs.Context.Recovery
import XmlBinding.Proofs.Context.Table
import XmlBinding.Proofs.Session
import XmlBinding.Proofs.Json.Printed
import XmlBinding.Proofs.Binding.Encoded
import XmlBinding.Proofs.Text.Utf8
import XmlBinding.Proofs.Bundle.Path
import XmlBinding.Proofs.Bundle.Disk
import XmlBinding.Proofs.Bundle.Saved
import XmlBinding.Proofs.Bundle.Loaded
import XmlBinding.Proofs.Bundle.Reload
import XmlBinding.Proofs.Binding.Reread
import XmlBinding.Proofs.Text.Utf16
import XmlBinding.Proofs.Document.Octets
import XmlBinding.Proofs.Calendar.Literal
import XmlBinding.Proofs.Calendar.Reading
import XmlBinding.Proofs.Unmarshal.Settled
import XmlBinding.Proofs.Unmarshal.Agreement
import XmlBinding.Proofs.Unmarshal.SameDocument
import XmlBinding.Proofs.Number.Numeral
import XmlBinding.Proofs.Calendar.Duration
import XmlBinding.Proofs.Calendar.Denoted
import XmlBinding.Proofs.Calendar.Written
import XmlBinding.Proofs.Calendar.Reread
import XmlBinding.Proofs.Calendar.Days
import XmlBinding.Proofs.Calendar.Comparison
import XmlBinding.Proofs.Document.Closing
import XmlBinding.Proofs.Document.Declared
import XmlBinding.Proofs.Lexical.Integer
import XmlBinding.Proofs.Number.Decimal
import XmlBinding.Proofs.Lexical.Decimal
import XmlBinding.Proofs.Lexical.Text
import XmlBinding.Proofs.Marshal.Rejection
import XmlBinding.Proofs.Marshal.Misshapen
import XmlBinding.Proofs.Marshal.ClosedSet
import XmlBinding.Proofs.Marshal.Emission
import XmlBinding.Proofs.Marshal.Emitted
import XmlBinding.Proofs.Binding.Index
import XmlBinding.Proofs.Binding.Stable
import XmlBinding.Proofs.Binding.Defaults
import XmlBinding.Proofs.Binding.Derivation
import XmlBinding.Proofs.Value.Equality
import XmlBinding.Proofs.Document.Markup.Standard
import XmlBinding.Proofs.Bundle.Kept
import XmlBinding.Proofs.Document.Rebuilt
import XmlBinding.Proofs.Unmarshal.Named
import XmlBinding.Proofs.Document.Lookup
import XmlBinding.Proofs.Document.Fresh
