import Regesta.Main
import Regesta.Session
import Regesta.Proofs.Path.Denotation
import Regesta.Proofs.Manifest.Acceptance
import Regesta.Proofs.Evaluation.Modes
import Regesta.Proofs.Evaluation.Shape
import Regesta.Proofs.Service.Refresh
import Regesta.Proofs.Service.Rendition
import Regesta.Proofs.Files.Change
import Regesta.Proofs.Collection.Listing
import Regesta.Proofs.Service.Concurrent
import Regesta.Proofs.Session
import Regesta.Proofs.Watcher
import Regesta.Proofs.Service.Lookup
import Regesta.Proofs.Xml.Markup
import Regesta.Proofs.Xml.Source
import Regesta.Proofs.Evaluation.Multiplicity
import Regesta.Proofs.Xml.Invariant
import Regesta.Proofs.Members
import Regesta.Proofs.Xml.Data
import Regesta.Proofs.Xml.Attribute
import Regesta.Proofs.Collection.Enumeration
import Regesta.Proofs.Evaluation.Extraction
import Regesta.Proofs.Manifest.Strictness
import Regesta.Proofs.Manifest.Spelling
import Regesta.Proofs.Path.Abbreviation
import Regesta.Proofs.Path.Traversal
import Regesta.Proofs.Xml.Remark
import Regesta.Proofs.Path.AttributeName
import Regesta.Proofs.Path.Declaration
import Regesta.Proofs.Evaluation.Warnings
import Regesta.Proofs.Json.Record
import Regesta.Proofs.Namespace.Rendering
import Regesta.Proofs.Value.Dotted
import Regesta.Proofs.Text.Words
import Regesta.Proofs.Path.Inverse
import Regesta.Proofs.Path.Bodies
