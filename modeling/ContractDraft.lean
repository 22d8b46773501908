import ContractDraft.Json.Printer
import ContractDraft.Settings.Options
import ContractDraft.Output.LineWriter
import ContractDraft.Main
import ContractDraft.CommandLine.World
import ContractDraft.Proofs.Json.DistinctKeys
import ContractDraft.Proofs.Json.Printer
import ContractDraft.Proofs.Json.Cursor
import ContractDraft.Proofs.Json.Prefix
import ContractDraft.Proofs.Json.Depth
import ContractDraft.Proofs.Json.Place
import ContractDraft.Proofs.Json.NumeralBytes
import ContractDraft.Proofs.Contract.Calls
import ContractDraft.Proofs.Contract.InlineDraft
import ContractDraft.Proofs.Fragment.Selection
import ContractDraft.Proofs.Fragment.Sharing
import ContractDraft.Proofs.Contract.Grammar
import ContractDraft.Proofs.Contract.Readback
import ContractDraft.Proofs.Contract.Lossless
import ContractDraft.Proofs.Contract.Signature
import ContractDraft.Proofs.Fragment.Sampled
import ContractDraft.Proofs.Contract.Sampled
import ContractDraft.Proofs.Dialect.Brackets
import ContractDraft.Proofs.Output.Lines
import ContractDraft.Proofs.Fragment.Agreement
import ContractDraft.Proofs.Contract.Agreement
import ContractDraft.Proofs.Contract.Examples
import ContractDraft.Proofs.Settings.Schemas
import ContractDraft.Proofs.CommandLine.Run
import ContractDraft.Proofs.Dialect.Literals
import ContractDraft.Proofs.Dialect.Samples
import ContractDraft.Proofs.Fragment.FirstCharacter
import ContractDraft.Proofs.Contract.MixedArrays
import ContractDraft.Proofs.Contract.Fallback
import ContractDraft.Proofs.Output.Room
import ContractDraft.Proofs.Dialect.Indentation
import ContractDraft.Proofs.Settings.PartialDialect
