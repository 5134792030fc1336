import CodeSessions.Http.Address
import CodeSessions.Http.Exchange
import CodeSessions.Http.Server
import CodeSessions.Main
import CodeSessions.Service.Flow
import CodeSessions.Proofs.Cell.Decomposition
import CodeSessions.Proofs.Cell.FurtherLines
import CodeSessions.Proofs.Text.CodePoints
import CodeSessions.Proofs.Text.ByteOrder
import CodeSessions.Proofs.Text.LeadBytes
import CodeSessions.Proofs.Text.Decoding
import CodeSessions.Proofs.Number.Lengths
import CodeSessions.Proofs.Script.Derivation
import CodeSessions.Proofs.Script.Reading
import CodeSessions.Proofs.Script.Statements
import CodeSessions.Proofs.Script.Source
import CodeSessions.Proofs.Script.LineByLine
import CodeSessions.Proofs.Script.Limits
import CodeSessions.Proofs.Script.Literals
import CodeSessions.Proofs.Script.Trees
import CodeSessions.Proofs.Script.Nesting
import CodeSessions.Proofs.Script.Operators
import CodeSessions.Proofs.Script.Integers
import CodeSessions.Proofs.Script.Displayed
import CodeSessions.Proofs.Script.Chains
import CodeSessions.Proofs.Script.Comparisons
import CodeSessions.Proofs.Script.Faults
import CodeSessions.Proofs.Script.Growth
import CodeSessions.Proofs.Script.Completed
import CodeSessions.Proofs.Script.OutputLines
import CodeSessions.Proofs.Script.Printing
import CodeSessions.Proofs.Script.Continuation
import CodeSessions.Proofs.Script.Names
import CodeSessions.Proofs.Script.DefiniteAssignment
import CodeSessions.Proofs.Store.Keys
import CodeSessions.Proofs.Store.Identity
import CodeSessions.Proofs.Service.Target
import CodeSessions.Proofs.Service.Footprint
import CodeSessions.Proofs.Service.CapturedOutput
import CodeSessions.Proofs.Service.NonInterference
import CodeSessions.Proofs.Service.Exclusion
import CodeSessions.Proofs.Service.Serialisation
import CodeSessions.Proofs.Wire.RoundTrip
import CodeSessions.Proofs.Store.Observations
import CodeSessions.Proofs.Store.Holdings
import CodeSessions.Proofs.Store.Sweeps
import CodeSessions.Proofs.Service.Requests
import CodeSessions.Proofs.Service.References
import CodeSessions.Proofs.Service.Safekeeping
import CodeSessions.Proofs.Service.Idleness
import CodeSessions.Proofs.Service.Completion
import CodeSessions.Proofs.Service.Bursts
import CodeSessions.Proofs.Service.Lifetimes
import CodeSessions.Proofs.Http.Encoding
import CodeSessions.Proofs.Http.Paths
import CodeSessions.Proofs.Http.Calls
import CodeSessions.Proofs.Http.Refinement
import CodeSessions.Proofs.Http.Management
import CodeSessions.Proofs.Http.Listings
