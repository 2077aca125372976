import ChartGrammar.Main
import ChartGrammar.Proofs.Chart.RoundTrip
import ChartGrammar.Proofs.Rendering.Strictness
import ChartGrammar.Proofs.Rendering.Findings
import ChartGrammar.Proofs.Shipped.Columns
import ChartGrammar.Proofs.Text.Formula
import ChartGrammar.Workspace
import ChartGrammar.Writer.Absent
import ChartGrammar.Proofs.Shipped.Dropped
import ChartGrammar.Proofs.Registry.Tables
import ChartGrammar.Proofs.Rendering.Reports
import ChartGrammar.Proofs.Rendering.StyleKeys
import ChartGrammar.Proofs.Rendering.OtherGrammars
import ChartGrammar.Proofs.Chart.Rearranged
import ChartGrammar.Proofs.Chart.Sketches
import ChartGrammar.Proofs.Table.Slips
import ChartGrammar.Proofs.Registry.Completeness
import ChartGrammar.Proofs.Rendering.Usable
import ChartGrammar.Proofs.Rendering.Folded
import ChartGrammar.Proofs.Rendering.Snapshots
import ChartGrammar.Proofs.Rendering.Coverage
import ChartGrammar.Proofs.Shipped.Bins
import ChartGrammar.Proofs.Shipped.Bars
import ChartGrammar.Proofs.Schema.RoundTrip
import ChartGrammar.Proofs.Style.Shapes
import ChartGrammar.Proofs.Table.EffectiveRows
import ChartGrammar.Proofs.Rendering.Locality
import ChartGrammar.Proofs.Schema.Decoding
import ChartGrammar.Proofs.Chart.Payloads
import ChartGrammar.Proofs.Rendering.Panels
import ChartGrammar.Proofs.Rendering.Cropping
import ChartGrammar.Proofs.Registry.Directory
import ChartGrammar.Proofs.Rendering.Encoding
