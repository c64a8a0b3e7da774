import Highlight.Expectation
import Highlight.Main
import Highlight.Proofs.AtStart
import Highlight.Proofs.Offsets
import Highlight.Proofs.Candidate
import Highlight.Proofs.Selection
import Highlight.Proofs.Level
import Highlight.Proofs.Tiling
import Highlight.Proofs.Provenance
import Highlight.Proofs.Restart
import Highlight.Proofs.Lossless
import Highlight.Proofs.Dangling
import Highlight.Proofs.Rest
import Highlight.Proofs.Limits
import Highlight.Proofs.Depth
import Highlight.Proofs.References
import Highlight.Proofs.Frame
import Highlight.Proofs.Sharing
import Highlight.Proofs.Compiling
import Highlight.Proofs.Faults
import Highlight.Proofs.Listing
import Highlight.Proofs.Obtained
import Highlight.Proofs.Untagged
import Highlight.Proofs.Definition.JsonFile
import Highlight.Proofs.Requests
import Highlight.Proofs.Precedence
import Highlight.Proofs.LibraryRun
import Highlight.Proofs.Acceptance
import Highlight.Proofs.Splicing
import Highlight.Proofs.Compiled
import Highlight.Proofs.Definition.Lists
import Highlight.Proofs.Locality
import Highlight.Proofs.Drawing
import Highlight.Proofs.Markup
import Highlight.Proofs.Merging
import Highlight.Proofs.Json.Tokens
import Highlight.Proofs.Flags
import Highlight.Proofs.Leftmost
