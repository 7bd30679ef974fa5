import Reckon.Interpreter.Entries
import Reckon.Proofs.Bytecode.Directives
import Reckon.Proofs.Bytecode.ImageReencoding
import Reckon.Proofs.Compiler.Layout
import Reckon.Proofs.Compiler.Reuse
import Reckon.Proofs.Compiler.Scopes
import Reckon.Proofs.Heap.Staleness
import Reckon.Proofs.Interpreter.Caching
import Reckon.Proofs.Interpreter.ImageRuns
import Reckon.Proofs.Interpreter.Sequencing
import Reckon.Proofs.Interpreter.SourceImages
import Reckon.Proofs.Machine.Isolation
import Reckon.Proofs.Machine.Kinds
import Reckon.Proofs.Settings.Layering
import Reckon.Proofs.Token.Exponents
import Reckon.Proofs.Trie.Tables
import Reckon.Proofs.Value.Words
