import ByteBasic.Compiler.Session
import ByteBasic.Proofs.Storage.Coherence
import ByteBasic.Tag.Attribute
import ByteBasic.Tag.Table
import ByteBasic.Proofs.Storage.Operations
import ByteBasic.Proofs.Storage.WriteBack
import ByteBasic.Proofs.Code.Assembly
import ByteBasic.Proofs.Code.Patching
import ByteBasic.Proofs.Code.Stepping
import ByteBasic.Proofs.Code.Refinement
import ByteBasic.Proofs.Storage.Pinning
import ByteBasic.Proofs.Storage.Serving
import ByteBasic.Proofs.Compiler.Building
import ByteBasic.Proofs.Compiler.Operands
import ByteBasic.Proofs.Source.Meaning
import ByteBasic.Proofs.Compiler.Assignments
import ByteBasic.Proofs.Compiler.Conditions
import ByteBasic.Proofs.Compiler.Blocks
import ByteBasic.Proofs.Compiler.Calls
import ByteBasic.Proofs.Compiler.Statements
import ByteBasic.Proofs.Compiler.Sessions
import ByteBasic.Proofs.Compiler.Refusals
import ByteBasic.Proofs.Machine.Consoles
import ByteBasic.Proofs.Program.Linking
import ByteBasic.Proofs.Program.Streams
import ByteBasic.Proofs.Compiler.Locality
import ByteBasic.Proofs.Program.Tracing
import ByteBasic.Proofs.Program.Tracking
import ByteBasic.Proofs.Program.Holding
import ByteBasic.Proofs.Program.Placement
import ByteBasic.Proofs.Program.Following
import ByteBasic.Proofs.Program.Jumping
import ByteBasic.Proofs.Program.Branching
import ByteBasic.Proofs.Program.Calling
import ByteBasic.Proofs.Program.Simulation
import ByteBasic.Proofs.Program.Correctness
import ByteBasic.Proofs.Code.Resolution
import ByteBasic.Proofs.Storage.Settling
import ByteBasic.Proofs.Compiler.Guarding
import ByteBasic.Proofs.Compiler.Turning
import ByteBasic.Proofs.Program.Images
import ByteBasic.Proofs.Source.Grammar
import ByteBasic.Proofs.Source.Printing
import ByteBasic.Proofs.Compiler.Passing
import ByteBasic.Proofs.Compiler.Steering
import ByteBasic.Proofs.Compiler.Sequencing
import ByteBasic.Proofs.Compiler.Isolation
import ByteBasic.Proofs.Compiler.Nesting
import ByteBasic.Proofs.Code.Faults
import ByteBasic.Proofs.Compiler.Labelling
import ByteBasic.Proofs.Program.Resolving
import ByteBasic.Proofs.Machine.Cycles
import ByteBasic.Proofs.Machine.Checking
import ByteBasic.Proofs.Machine.Safety
import ByteBasic.Proofs.Machine.Reception
import ByteBasic.Proofs.Code.Renumbering
import ByteBasic.Proofs.Machine.Shielding
import ByteBasic.Proofs.Compiler.Renumbering
import ByteBasic.Proofs.Compiler.Parts
import ByteBasic.Proofs.Program.Spacing
import ByteBasic.Proofs.Machine.Stopping
import ByteBasic.Proofs.Compiler.Effects
import ByteBasic.Proofs.Program.Deciding
import ByteBasic.Proofs.Machine.Reencoding
import ByteBasic.Proofs.Machine.Assembling
import ByteBasic.Proofs.Source.Stripping
import ByteBasic.Proofs.Compiler.Spelling
import ByteBasic.Proofs.Code.Filling
import ByteBasic.Proofs.Storage.Refusing
import ByteBasic.Proofs.Program.Redefining
import ByteBasic.Proofs.Program.Declaring
import ByteBasic.Proofs.Machine.Packing
import ByteBasic.Proofs.Code.Growing
import ByteBasic.Proofs.Storage.Choosing
import ByteBasic.Proofs.Compiler.Interning
import ByteBasic.Proofs.Machine.Listing
import ByteBasic.Proofs.Machine.Tagging
import ByteBasic.Proofs.Tag.Naming
import ByteBasic.Proofs.Tag.Numbering
