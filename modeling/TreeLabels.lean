import TreeLabels.Event
import TreeLabels.Inspect
import TreeLabels.Labeller
import TreeLabels.NameTable
import TreeLabels.Node
import TreeLabels.Numeral
import TreeLabels.Proofs.CleanText
import TreeLabels.Proofs.CursorReadings
import TreeLabels.Proofs.Diagnostics
import TreeLabels.Proofs.DumpLines
import TreeLabels.Proofs.EqualValues
import TreeLabels.Proofs.ErrorMark
import TreeLabels.Proofs.EscapeLoss
import TreeLabels.Proofs.EscapePasses
import TreeLabels.Proofs.EscapePieces
import TreeLabels.Proofs.EscapeStages
import TreeLabels.Proofs.FrozenLabellers
import TreeLabels.Proofs.Inspection
import TreeLabels.Proofs.LabelLayer
import TreeLabels.Proofs.LabelWhitespace
import TreeLabels.Proofs.ReferenceLabels
import TreeLabels.Proofs.ResolverAgreement
import TreeLabels.Proofs.RuleIdentity
import TreeLabels.Proofs.RuleText
import TreeLabels.Proofs.SelfDelimiting
import TreeLabels.Proofs.Separator
import TreeLabels.Proofs.SessionHistory
import TreeLabels.Proofs.TableAgreement
import TreeLabels.Proofs.TableBuilding
import TreeLabels.Proofs.TableGrowth
import TreeLabels.Resolver
import TreeLabels.Session
import TreeLabels.Session.Request
import TreeLabels.Whitespace
