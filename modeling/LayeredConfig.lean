import LayeredConfig.Cli.Args
import LayeredConfig.Cli.Run
import LayeredConfig.Crypto.Aead
import LayeredConfig.Crypto.ChaCha20
import LayeredConfig.Crypto.Pbkdf2
import LayeredConfig.Crypto.Poly1305
import LayeredConfig.Crypto.Sha256
import LayeredConfig.Directive.Basic
import LayeredConfig.Directive.Coerce
import LayeredConfig.Directive.Resolve
import LayeredConfig.Error
import LayeredConfig.Host.Basic
import LayeredConfig.Host.Machine
import LayeredConfig.Host.Path
import LayeredConfig.Json.Read
import LayeredConfig.Json.Write
import LayeredConfig.Layers
import LayeredConfig.Main
import LayeredConfig.Number.Binary64
import LayeredConfig.Number.Shortest
import LayeredConfig.Obfuscator
import LayeredConfig.Proofs.Assignment
import LayeredConfig.Proofs.Bootstrap
import LayeredConfig.Proofs.Cipher
import LayeredConfig.Proofs.Codecs
import LayeredConfig.Proofs.DirectiveGrammar
import LayeredConfig.Proofs.Discovery
import LayeredConfig.Proofs.DottedReferences
import LayeredConfig.Proofs.Failure
import LayeredConfig.Proofs.IntegerDoubles
import LayeredConfig.Proofs.LeadingInteger
import LayeredConfig.Proofs.Leaves
import LayeredConfig.Proofs.LenientDecoding
import LayeredConfig.Proofs.MachineRun
import LayeredConfig.Proofs.Merge
import LayeredConfig.Proofs.Nesting
import LayeredConfig.Proofs.Numerals
import LayeredConfig.Proofs.Obfuscation
import LayeredConfig.Proofs.Paths
import LayeredConfig.Proofs.Process
import LayeredConfig.Proofs.References
import LayeredConfig.Proofs.Replay
import LayeredConfig.Proofs.Resolve
import LayeredConfig.Proofs.ResolvedValues
import LayeredConfig.Proofs.SecretSteps
import LayeredConfig.Proofs.Secrets
import LayeredConfig.Proofs.Settle
import LayeredConfig.Proofs.Stores
import LayeredConfig.Proofs.Walk
import LayeredConfig.Proofs.WalkOrder
import LayeredConfig.Proofs.WalkReplay
import LayeredConfig.Proofs.WalkState
import LayeredConfig.Session
import LayeredConfig.Settings
import LayeredConfig.Text.Base64
import LayeredConfig.Text.Blank
import LayeredConfig.Text.Combining
import LayeredConfig.Text.Hex
import LayeredConfig.Text.Printable
import LayeredConfig.Text.Quoted
import LayeredConfig.Text.Similarity
import LayeredConfig.Text.Split
import LayeredConfig.Text.Utf8
import LayeredConfig.Toml.Datetime
import LayeredConfig.Toml.Decode
import LayeredConfig.Toml.Document
import LayeredConfig.Toml.Grammar
import LayeredConfig.Toml.Lex
import LayeredConfig.Toml.Read
import LayeredConfig.Toml.Write
import LayeredConfig.Tree.Basic
import LayeredConfig.Tree.Dump
import LayeredConfig.Tree.Merge
import LayeredConfig.Tree.Path
import LayeredConfig.Tree.Reference
import LayeredConfig.Tree.Walk
