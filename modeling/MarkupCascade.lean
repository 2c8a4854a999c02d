import MarkupCascade.Access
import MarkupCascade.Conversion
import MarkupCascade.Main
import MarkupCascade.Proofs.Blank
import MarkupCascade.Proofs.Clause
import MarkupCascade.Proofs.PhysicalLine
import MarkupCascade.Proofs.LogicalLine
import MarkupCascade.Proofs.ConditionCheck
import MarkupCascade.Proofs.Closing
import MarkupCascade.Proofs.Outline
import MarkupCascade.Proofs.Indentation
import MarkupCascade.Proofs.Settlement
import MarkupCascade.Proofs.TypedRead
import MarkupCascade.Proofs.Lexical
import MarkupCascade.Proofs.Lookahead
import MarkupCascade.Proofs.Grammar
import MarkupCascade.Proofs.Layout
import MarkupCascade.Proofs.Brace
import MarkupCascade.Proofs.Printed
import MarkupCascade.Proofs.Markup
import MarkupCascade.Proofs.Sheet
import MarkupCascade.Proofs.SingleLine
import MarkupCascade.Proofs.Refusal
import MarkupCascade.Proofs.Consultation
import MarkupCascade.Proofs.Relevance
import MarkupCascade.Proofs.Numbering
import MarkupCascade.Proofs.Document
import MarkupCascade.Proofs.Grouping
import MarkupCascade.Proofs.UnusedRule
import MarkupCascade.Proofs.Gathering
import MarkupCascade.Proofs.Moved
import MarkupCascade.Proofs.FaultLine
import MarkupCascade.Proofs.Concatenation
import MarkupCascade.Proofs.FirstFault
import MarkupCascade.Proofs.KnownClass
import MarkupCascade.Proofs.History
import MarkupCascade.Proofs.Partition
import MarkupCascade.Proofs.Extent
import MarkupCascade.Proofs.FaultPlace
import MarkupCascade.Proofs.LiteralPlace
import MarkupCascade.Proofs.ViablePrefix
import MarkupCascade.Proofs.Rounding
import MarkupCascade.Proofs.Digits
import MarkupCascade.Proofs.FloatText
import MarkupCascade.Proofs.Insertion
import MarkupCascade.Proofs.Spacing
import MarkupCascade.Proofs.Conjunction
import MarkupCascade.Proofs.FalseAlarm
import MarkupCascade.Proofs.Meaning
import MarkupCascade.Proofs.StateEntry
import MarkupCascade.Proofs.PercentageRange
import MarkupCascade.Proofs.Verdict
import MarkupCascade.Proofs.LiteralRange
import MarkupCascade.Proofs.LineEnd
import MarkupCascade.Proofs.StaticRead
import MarkupCascade.Proofs.TupleConversion
