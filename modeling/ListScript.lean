import ListScript.Main
import ListScript.Script
import ListScript.Session
import ListScript.Toml.Quoted.RoundTrip
import ListScript.Proofs.Reading
import ListScript.Proofs.Spelling
import ListScript.Proofs.Splitting
import ListScript.Proofs.Canonical
import ListScript.Proofs.Application
import ListScript.Proofs.Execution
import ListScript.Proofs.Placement
import ListScript.Proofs.Grammar
import ListScript.Proofs.Bindings
import ListScript.Proofs.Sessions
import ListScript.Proofs.Numbering
import ListScript.Proofs.Coverage
import ListScript.Proofs.Checking
import ListScript.Proofs.JsonValues
import ListScript.Proofs.Rendering
import ListScript.Proofs.Growth
import ListScript.Proofs.Dependence
import ListScript.Proofs.Exchange
import ListScript.Proofs.Modulus
import ListScript.Proofs.QuotedText
import ListScript.Proofs.WrittenDocuments
import ListScript.Proofs.CatalogDocument
import ListScript.Proofs.ExactArithmetic
import ListScript.Proofs.Totals
import ListScript.Proofs.ModularScan
import ListScript.Proofs.StatementOutcome
import ListScript.Proofs.SmallModulus
import ListScript.Proofs.SignatureCheck
import ListScript.Proofs.Cuts
import ListScript.Proofs.Ordering
import ListScript.Proofs.Boundaries
import ListScript.Proofs.ValueTexts
import ListScript.Proofs.StatementParts
import ListScript.Proofs.Selection
import ListScript.Proofs.FaultyLines
import ListScript.Proofs.Grouping
import ListScript.Proofs.VariableTokens
