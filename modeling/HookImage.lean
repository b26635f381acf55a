/-
# Interception images

The active interceptions of a managed process, kept in a registry and rebuilt as the
methods of an image that can be written and read back.
-/

import HookImage.Bytes
import HookImage.Cil.Body
import HookImage.Cil.Cursor
import HookImage.Cil.Encode
import HookImage.Cil.Instruction
import HookImage.Cil.Layout
import HookImage.Cil.Manipulator
import HookImage.Cil.Opcode
import HookImage.Cil.Region
import HookImage.Cil.Script
import HookImage.Cil.StackDepth
import HookImage.Diagnostics
import HookImage.Error
import HookImage.Host.Capture
import HookImage.Host.Descriptor
import HookImage.Host.Owner
import HookImage.Host.Patch
import HookImage.Host.View
import HookImage.Identity
import HookImage.Image.Basic
import HookImage.Image.CodedIndex
import HookImage.Image.File
import HookImage.Image.Heap
import HookImage.Image.Interner
import HookImage.Image.Reader
import HookImage.Image.Sha1
import HookImage.Image.SymbolTable
import HookImage.Image.Tables
import HookImage.Proofs.Bytes.Compressed
import HookImage.Proofs.Bytes.Reading
import HookImage.Proofs.Cil.Clauses
import HookImage.Proofs.Cil.CodeReader
import HookImage.Proofs.Cil.DepthFlow
import HookImage.Proofs.Cil.Editing
import HookImage.Proofs.Cil.Encodable
import HookImage.Proofs.Cil.EncodedCode
import HookImage.Proofs.Cil.LocalSlots
import HookImage.Proofs.Cil.Placement
import HookImage.Proofs.Cil.Refusal
import HookImage.Proofs.Cil.Removal
import HookImage.Proofs.Cil.SearchLoops
import HookImage.Proofs.Cil.Widening
import HookImage.Proofs.Host.Attribution
import HookImage.Proofs.Image.Addressing
import HookImage.Proofs.Image.Bodies
import HookImage.Proofs.Image.CodedTokens
import HookImage.Proofs.Image.Contents
import HookImage.Proofs.Image.Drafted
import HookImage.Proofs.Image.FileHeaders
import HookImage.Proofs.Image.Fitting
import HookImage.Proofs.Image.Heaps
import HookImage.Proofs.Image.Layout
import HookImage.Proofs.Image.Literals
import HookImage.Proofs.Image.Ownership
import HookImage.Proofs.Image.Parts
import HookImage.Proofs.Image.ReadBack
import HookImage.Proofs.Image.ReaderSafety
import HookImage.Proofs.Image.Rows
import HookImage.Proofs.Image.Settled
import HookImage.Proofs.Image.StreamHeaders
import HookImage.Proofs.Image.TableRows
import HookImage.Proofs.Image.TableStream
import HookImage.Proofs.Image.Truncation
import HookImage.Proofs.Image.Written
import HookImage.Proofs.Import.Growth
import HookImage.Proofs.Import.Meaning
import HookImage.Proofs.Import.Methods
import HookImage.Proofs.Import.Named
import HookImage.Proofs.Import.Repeating
import HookImage.Proofs.Import.Rows
import HookImage.Proofs.Import.Sites
import HookImage.Proofs.Import.Traceless
import HookImage.Proofs.Rebuild.Accepting
import HookImage.Proofs.Rebuild.Accounting
import HookImage.Proofs.Rebuild.Agreement
import HookImage.Proofs.Rebuild.Ancestors
import HookImage.Proofs.Rebuild.Classifying
import HookImage.Proofs.Rebuild.Definitions
import HookImage.Proofs.Rebuild.Forest
import HookImage.Proofs.Rebuild.Housing
import HookImage.Proofs.Rebuild.Isolation
import HookImage.Proofs.Rebuild.NamedTypes
import HookImage.Proofs.Rebuild.NestingDepth
import HookImage.Proofs.Rebuild.Receivers
import HookImage.Proofs.Rebuild.Replay
import HookImage.Proofs.Rebuild.Resolving
import HookImage.Proofs.Rebuild.Serializing
import HookImage.Proofs.Rebuild.SortedTables
import HookImage.Proofs.Rebuild.Sources
import HookImage.Proofs.Rebuild.Sweeping
import HookImage.Proofs.Rebuild.Tagging
import HookImage.Proofs.Rebuild.Targets
import HookImage.Proofs.Registry.Grouping
import HookImage.Proofs.Registry.History
import HookImage.Proofs.Signature.Alike
import HookImage.Proofs.Signature.Decoding
import HookImage.Proofs.Signature.Headers
import HookImage.Proofs.Signature.Joining
import HookImage.Proofs.Signature.Numbers
import HookImage.Proofs.Signature.ReadBack
import HookImage.Proofs.Signature.Reader
import HookImage.Proofs.Signature.Written
import HookImage.Proofs.StableOrder
import HookImage.Proofs.Success
import HookImage.Proofs.Symbols.Growth
import HookImage.Proofs.Symbols.Handing
import HookImage.Proofs.Symbols.Interning
import HookImage.Proofs.Symbols.TypePaths
import HookImage.Proofs.Text.AsciiCase
import HookImage.Rebuild.Bucket
import HookImage.Rebuild.FilePath
import HookImage.Rebuild.Folder
import HookImage.Rebuild.Import
import HookImage.Rebuild.Placement
import HookImage.Rebuild.Provenance
import HookImage.Rebuild.Report
import HookImage.Rebuild.Synthesis
import HookImage.Rebuild.Validity
import HookImage.Registry.Basic
import HookImage.Registry.Record
import HookImage.Registry.Snapshot
import HookImage.Session
import HookImage.Signature.Basic
import HookImage.Signature.Blob
import HookImage.Signature.Inspect
import HookImage.Text.AsciiCase
import HookImage.Text.Blank
import HookImage.Text.Hex
import HookImage.Text.Quoted
import HookImage.Text.Shortest
import HookImage.Text.Utf8
import HookImage.Token
