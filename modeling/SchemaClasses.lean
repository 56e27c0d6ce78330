import SchemaClasses.Main
import SchemaClasses.Proofs.Builder.Copying
import SchemaClasses.Proofs.Definition.Accessors
import SchemaClasses.Proofs.Definition.Expressions
import SchemaClasses.Proofs.Definition.FieldKeys
import SchemaClasses.Proofs.Definition.TagTable
import SchemaClasses.Proofs.Definition.Precedence
import SchemaClasses.Proofs.Definition.TypeNames
import SchemaClasses.Proofs.Derivation.Fields
import SchemaClasses.Proofs.Derivation.Order
import SchemaClasses.Proofs.Derivation.Options
import SchemaClasses.Proofs.Derivation.Repetition
import SchemaClasses.Proofs.Graph.Building
import SchemaClasses.Proofs.Graph.PostOrder
import SchemaClasses.Proofs.Graph.Rebuilding
import SchemaClasses.Proofs.Schema.Lookup
import SchemaClasses.Proofs.Schema.Resolution
import SchemaClasses.Proofs.Builder.Edits
import SchemaClasses.Proofs.Builder.Lineage
import SchemaClasses.Proofs.Definition.Copies
import SchemaClasses.Proofs.Document.Bounds
import SchemaClasses.Proofs.Document.Numbering
import SchemaClasses.Proofs.Schema.Agreement
import SchemaClasses.Proofs.Schema.Bounds
import SchemaClasses.Proofs.Schema.Places
import SchemaClasses.Proofs.Derivation.ContentModel
import SchemaClasses.Proofs.Derivation.Lodgers
import SchemaClasses.Proofs.Definition.Selections
import SchemaClasses.Proofs.Derivation.Facets
import SchemaClasses.Proofs.Schema.Labels
import SchemaClasses.Proofs.Definition.Narrowing
import SchemaClasses.Proofs.Definition.Reports
import SchemaClasses.Proofs.Definition.Homonyms
import SchemaClasses.Proofs.Schema.NumericFacets
import SchemaClasses.Proofs.Definition.Notices
import SchemaClasses.Proofs.Instance
import SchemaClasses.Proofs.Words
