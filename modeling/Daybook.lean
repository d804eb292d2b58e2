import Daybook.Main
import Daybook.Proofs.Calendar.Midnight
import Daybook.Proofs.DayView.Overlap
import Daybook.Proofs.DayView.Selection
import Daybook.Proofs.DayView.SkippedMidnight
import Daybook.Proofs.Packing.Depth
import Daybook.Proofs.DayView.Contents
import Daybook.Proofs.Agenda.Check
import Daybook.Proofs.Json.Spelling
import Daybook.Proofs.Json.Lexing
import Daybook.Proofs.Json.Parsing
import Daybook.Proofs.Json.Printing
import Daybook.Proofs.Text.Digits
import Daybook.Proofs.Calendar.Civil
import Daybook.Proofs.Json.Records
import Daybook.Proofs.Calendar.InstantText
import Daybook.Proofs.Json.Values
import Daybook.Proofs.Agenda.RoundTrip
import Daybook.Proofs.Json.Grammar
import Daybook.Proofs.Packing.Lines
import Daybook.Proofs.Packing.Exact
import Daybook.Proofs.Packing.Ongoing
import Daybook.Proofs.Packing.Rearrangement
import Daybook.Proofs.Packing.Insertion
import Daybook.Proofs.Packing.Columns
import Daybook.Proofs.Packing.Translation
import Daybook.Proofs.DayView.Grid
import Daybook.Proofs.DayView.AlignedGrid
import Daybook.Proofs.Calendar.LastDates
import Daybook.Proofs.DayView.ReadingOrder
import Daybook.Proofs.Text.Lines
import Daybook.Proofs.DayView.Lines
import Daybook.Proofs.DayView.Ranges
import Daybook.Proofs.Agenda.FirstProblem
import Daybook.Proofs.Agenda.TasksByNumber
import Daybook.Proofs.Agenda.Kinds
import Daybook.Proofs.Agenda.HandWritten
import Daybook.Proofs.Duration
import Daybook.Proofs.Calendar.Neighbours
import Daybook.Proofs.Calendar.Scan
import Daybook.Proofs.Calendar.DateText
import Daybook.Proofs.DayView.Json
import Daybook.Proofs.Toml.Keys
import Daybook.Proofs.Settings.Layers
import Daybook.Proofs.Settings.Load
import Daybook.Proofs.Settings.Torn
import Daybook.Proofs.CommandLine.Session
import Daybook.Proofs.CommandLine.Run
