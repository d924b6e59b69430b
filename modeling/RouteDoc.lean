import RouteDoc.Main
import RouteDoc.Proofs.Batch.Independence
import RouteDoc.Proofs.CommandLine
import RouteDoc.Proofs.Comment.Composition
import RouteDoc.Proofs.Comment.Placement
import RouteDoc.Proofs.Comment.Reparse
import RouteDoc.Proofs.Comment.Styles
import RouteDoc.Proofs.Confidentiality
import RouteDoc.Proofs.Extraction.Draws
import RouteDoc.Proofs.Extraction.Failure
import RouteDoc.Proofs.Extraction.Merge
import RouteDoc.Proofs.Extraction.Samples
import RouteDoc.Proofs.Group
import RouteDoc.Proofs.Handler
import RouteDoc.Proofs.Introspection.FormRequest
import RouteDoc.Proofs.Introspection.Roots
import RouteDoc.Proofs.Manifest
import RouteDoc.Proofs.Manuscript.Extraction
import RouteDoc.Proofs.Parameter.Cursor
import RouteDoc.Proofs.Parameter.Grammar
import RouteDoc.Proofs.Parameter.Marker
import RouteDoc.Proofs.Parameter.Table
import RouteDoc.Proofs.Parameter.Tokens
import RouteDoc.Proofs.Response.Chain
import RouteDoc.Proofs.Response.Confinement
import RouteDoc.Proofs.Response.Decoding
import RouteDoc.Proofs.Route.Methods
import RouteDoc.Proofs.Synthesizer.Registration
