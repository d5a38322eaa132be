import SessionCapture.Main
import SessionCapture.Output.Sink
import SessionCapture.Wire.Request
import SessionCapture.Workload
import SessionCapture.Proofs.Recordings
import SessionCapture.Proofs.RecordBlindness
import SessionCapture.Proofs.Overlay
import SessionCapture.Proofs.LongerInput
import SessionCapture.Proofs.Alignment
import SessionCapture.Proofs.ReadLines
import SessionCapture.Proofs.ReachedContexts
import SessionCapture.Proofs.RemarkTexts
import SessionCapture.Proofs.WrittenText
import SessionCapture.Proofs.Endings
import SessionCapture.Proofs.LiveDecode
import SessionCapture.Proofs.FailingSinks
import SessionCapture.Proofs.RemarkCounts
import SessionCapture.Proofs.OutputBound
import SessionCapture.Proofs.Displacement
import SessionCapture.Proofs.StatedOffsets
import SessionCapture.Proofs.SectionBySection
import SessionCapture.Proofs.EventStream
import SessionCapture.Proofs.Places
import SessionCapture.Proofs.Showings
import SessionCapture.Proofs.ReportedLines
import SessionCapture.Proofs.RecordTotals
import SessionCapture.Proofs.Deletions
import SessionCapture.Proofs.HiddenDescriptions
import SessionCapture.Proofs.RefusedResets
import SessionCapture.Proofs.DrawnGrids
import SessionCapture.Proofs.Responses
import SessionCapture.Proofs.SecretGrids
import SessionCapture.Proofs.ResetSpellings
import SessionCapture.Proofs.ResetFaults
import SessionCapture.Proofs.FormData
import SessionCapture.Proofs.LeadingFields
import SessionCapture.Proofs.RecordLoops
import SessionCapture.Proofs.EventSequences
import SessionCapture.Proofs.OpenedBuffers
import SessionCapture.Proofs.FixedChunks
import SessionCapture.Proofs.Extents
import SessionCapture.Proofs.ReaderViews
import SessionCapture.Proofs.ReportedRecords
import SessionCapture.Proofs.SafeArithmetic
import SessionCapture.Proofs.Workloads
