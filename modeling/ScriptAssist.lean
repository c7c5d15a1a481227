import ScriptAssist.Main
import ScriptAssist.Proofs.Steps
import ScriptAssist.Proofs.Publication
import ScriptAssist.Proofs.Places
import ScriptAssist.Proofs.Synchronisation
import ScriptAssist.Proofs.LineEndings
import ScriptAssist.Proofs.Scanner
import ScriptAssist.Proofs.Splicing
import ScriptAssist.Proofs.Decoding
import ScriptAssist.Proofs.Slices
import ScriptAssist.Proofs.Columns
import ScriptAssist.Proofs.Locality
import ScriptAssist.Proofs.Concatenation
import ScriptAssist.Proofs.Tokens
import ScriptAssist.Proofs.LeadingWords
import ScriptAssist.Proofs.Catalogs
import ScriptAssist.Proofs.Contexts
import ScriptAssist.Proofs.Suggestions
import ScriptAssist.Proofs.Spans
import ScriptAssist.Proofs.Carets
import ScriptAssist.Proofs.Separation
import ScriptAssist.Proofs.History
import ScriptAssist.Proofs.Lifecycle
import ScriptAssist.Proofs.Traceless
import ScriptAssist.Proofs.Commutation
import ScriptAssist.Proofs.SessionOptions
import ScriptAssist.Proofs.Templates
import ScriptAssist.Proofs.Details
