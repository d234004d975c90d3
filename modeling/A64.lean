import A64.CommandLine.Folder
import A64.CommandLine.Outcome
import A64.Main
import A64.Proofs.Annotations
import A64.Proofs.Assembler.Atomic
import A64.Proofs.Assembler.Branch
import A64.Proofs.Assembler.Fields
import A64.Proofs.Assembler.Immediate
import A64.Proofs.Assembler.Memory
import A64.Proofs.Assembler.Register
import A64.Proofs.Assembler.RegisterLayout
import A64.Proofs.Assembler.System
import A64.Proofs.BitfieldAliases
import A64.Proofs.Bitmasks
import A64.Proofs.Checked
import A64.Proofs.Checked.Bitmask
import A64.Proofs.Checked.Branch
import A64.Proofs.Checked.Float
import A64.Proofs.Checked.Immediate
import A64.Proofs.Checked.Memory
import A64.Proofs.Checked.Register
import A64.Proofs.Checked.Vector
import A64.Proofs.CheckedDecode
import A64.Proofs.ConditionalSelects
import A64.Proofs.ControlFlow
import A64.Proofs.DecodeInvariants
import A64.Proofs.Displacements
import A64.Proofs.Effects
import A64.Proofs.Effects.General
import A64.Proofs.Effects.Vector
import A64.Proofs.FlagEffects
import A64.Proofs.ListingRecords
import A64.Proofs.MemoryOperands
import A64.Proofs.MoveImmediates
import A64.Proofs.OperandEffects
import A64.Proofs.RandomAccess
import A64.Proofs.RecordOutcomes
import A64.Proofs.Regular.General
import A64.Proofs.Regular.Vector
import A64.Proofs.Relocation
import A64.Proofs.Rendering
import A64.Proofs.StreamAgreement
import A64.Proofs.StreamExchange
import A64.RandomAccess
import A64.Source.Device
import A64.Stream
import A64.Stream.Handoff
import A64.Proofs.RegisterSetReading
import A64.Proofs.Footprints
import A64.Proofs.ListingColumns
import A64.Proofs.InstructionEdits
import A64.Proofs.StreamLogs
import A64.Proofs.Arguments
import A64.Proofs.FileListings
import A64.Proofs.OperandTexts
import A64.Proofs.VectorOperands
import A64.Proofs.HexNumbers
