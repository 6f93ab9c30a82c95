import JackTokens.DirectoryTree
import JackTokens.Main
import JackTokens.Session
import JackTokens.Proofs.Flow
import JackTokens.Proofs.Stream
import JackTokens.Proofs.Continuation
import JackTokens.Proofs.Simulation
import JackTokens.Proofs.Buffering
import JackTokens.Proofs.Encoding
import JackTokens.Proofs.Grammar
import JackTokens.Proofs.Partition
import JackTokens.Proofs.Reading
import JackTokens.Proofs.Recognition
import JackTokens.Proofs.Tiling
import JackTokens.Proofs.RoundTrip
import JackTokens.Proofs.Finality
import JackTokens.Proofs.Lookahead
import JackTokens.Proofs.Decoding
import JackTokens.BufferSession
import JackTokens.CursorSession
import JackTokens.Proofs.Retrying
import JackTokens.Proofs.Cutoff
import JackTokens.Proofs.CharacterBytes
import JackTokens.Proofs.Refusal
import JackTokens.Proofs.Joining
import JackTokens.Proofs.SourceLines
import JackTokens.Proofs.Rendering
import JackTokens.Proofs.Pointing
import JackTokens.Proofs.WholeInput
import JackTokens.Proofs.Listings
import JackTokens.Proofs.Independence
import JackTokens.Proofs.LineEndings
import JackTokens.Proofs.OutputLimit
import JackTokens.Proofs.TextReading
import JackTokens.TokenText
import JackTokens.XmlDocument
import JackTokens.Proofs.XmlListing
import JackTokens.JsonDocument
import JackTokens.Proofs.JsonListing
import JackTokens.PlainDocument
import JackTokens.Proofs.TextListing
import JackTokens.Proofs.Reports
import JackTokens.Proofs.BufferBounds
import JackTokens.StoredBuffer
import JackTokens.Proofs.Progress
import JackTokens.Proofs.Foresight
import JackTokens.Proofs.Collecting
