import Minicomputer.Text.Blank
import Minicomputer.Text.ControlSequence
import Minicomputer.Text.Lines
import Minicomputer.Text.Numeral
import Minicomputer.Text.Table
import Minicomputer.Text.Utf8
import Minicomputer.Register
import Minicomputer.Operation
import Minicomputer.Instruction
import Minicomputer.Program
import Minicomputer.Log
import Minicomputer.Architecture
import Minicomputer.Architecture.Standard
import Minicomputer.Architecture.Listing
import Minicomputer.Assembly.Line
import Minicomputer.Assembly.SymbolTable
import Minicomputer.Assembly.Error
import Minicomputer.Assembly.Source
import Minicomputer.Assembly.Assembler
import Minicomputer.Machine.State
import Minicomputer.Machine.Status
import Minicomputer.Machine.Execute
import Minicomputer.Channel
import Minicomputer.Bridge.Event
import Minicomputer.Bridge.Dialogue
import Minicomputer.CoreDump
import Minicomputer.Cpu
import Minicomputer.Console.Number
import Minicomputer.Console
import Minicomputer.Console.Conversation
import Minicomputer.Cpu.Session
import Minicomputer.FileSystem
import Minicomputer.ImageFile
import Minicomputer.CommandLine.Options
import Minicomputer.CommandLine.Arguments
import Minicomputer.CommandLine.Help
import Minicomputer.CommandLine
import Minicomputer.Main
import Minicomputer.Proofs.Results
import Minicomputer.Proofs.Assembly.Grammar
import Minicomputer.Proofs.Assembly.Characters
import Minicomputer.Proofs.Assembly.Completeness
import Minicomputer.Proofs.Assembly.Reading
import Minicomputer.Proofs.Assembly.Immediate
import Minicomputer.Proofs.Assembly.Encoding
import Minicomputer.Proofs.Assembly.Spelling
import Minicomputer.Proofs.Text.Lines
import Minicomputer.Proofs.Assembly.Labels
import Minicomputer.Proofs.Architecture
import Minicomputer.Proofs.Assembly.Disassembly
import Minicomputer.Proofs.Assembly.Interpreter
import Minicomputer.Proofs.Assembly.Execution
import Minicomputer.Proofs.Machine.Faults
import Minicomputer.Proofs.Machine.Lifecycle
import Minicomputer.Proofs.Assembly.LineProblems
import Minicomputer.Proofs.Assembly.Diagnosis
import Minicomputer.Proofs.Channel
import Minicomputer.Proofs.Console.Handling
import Minicomputer.Proofs.Console.Talk
import Minicomputer.Proofs.Console.Scene
import Minicomputer.Proofs.Console.Duet
import Minicomputer.Proofs.Console.Heading
import Minicomputer.Proofs.Console.Termination
import Minicomputer.Proofs.Console.Interleaving
import Minicomputer.Proofs.Assembly.Faults
import Minicomputer.Proofs.Machine.Trajectory
import Minicomputer.Proofs.Machine.Account
import Minicomputer.Proofs.Machine.Observation
import Minicomputer.Proofs.Machine.Protocol
import Minicomputer.Proofs.Console.Exchange
import Minicomputer.Proofs.Console.Handshake
import Minicomputer.Proofs.Architecture.Definitions
import Minicomputer.Proofs.Architecture.Catalogue
import Minicomputer.Proofs.Program
import Minicomputer.Proofs.FileSystem
import Minicomputer.Proofs.ImageFile
import Minicomputer.Proofs.Architecture.Growth
import Minicomputer.Proofs.Machine.Bounds
import Minicomputer.Proofs.Machine.Guarded
import Minicomputer.Proofs.Machine.Interruption
import Minicomputer.Proofs.Console.Prompting
import Minicomputer.Proofs.Machine.LastWriter
import Minicomputer.Proofs.CommandLine.ImageRun
import Minicomputer.Proofs.Console.Writing
import Minicomputer.Proofs.Console.Refusal
import Minicomputer.Proofs.Machine.Arithmetic
import Minicomputer.Proofs.Machine.Linkage
import Minicomputer.Proofs.Assembly.Items
import Minicomputer.Proofs.Assembly.Renaming
import Minicomputer.Proofs.Assembly.SymbolTable
import Minicomputer.Proofs.Assembly.Summary
import Minicomputer.Proofs.CommandLine.Status
import Minicomputer.Proofs.CommandLine.Effects
import Minicomputer.Proofs.CoreDump
import Minicomputer.Proofs.Machine.Shifts
import Minicomputer.Proofs.Console.Numeral
import Minicomputer.Proofs.Machine.Forward
import Minicomputer.Proofs.Channel.Transfer
import Minicomputer.Proofs.Channel.Delivery
