import CityPods.WorkLeases.Exclusion
import CityPods.WorkLeases.Index
import CityPods.Compute.Cap
import CityPods.StateSync.Publication
import CityPods.StateSync.ScopedPush
import CityPods.Dispatch.Charges
import CityPods.Dispatch.Windows
import CityPods.Records.ArchiveAgreement
import CityPods.Records.IncrementalRetention
import CityPods.Records.TranscribeSharing
import CityPods.Dispatch.RequestSpacing
import CityPods.Discovery.BracketSearch
import CityPods.Dispatch.TerminalFeed
import CityPods.Dispatch.PackingAdmission
import CityPods.Gateway.Framing
import CityPods.Ops.LeaseExclusion
import CityPods.Compute.DeferredReadBack
import CityPods.Compute.FailureBudget
import CityPods.Quality.Decisions
import CityPods.Audio.Remapping
import CityPods.Audio.Clips
import CityPods.Audio.Silence
import CityPods.Dispatch.StructuralFailure
import CityPods.Media.NativeWorkGate
import CityPods.Media.Verdicts
import CityPods.Media.VerifiedDownload
import CityPods.Publication.TrueDuplicates
import CityPods.WorkLeases.SweepsAgree
import CityPods.Intake.NoticesSent
import CityPods.Intake.QueueRounds
import CityPods.Judging.Independence
import CityPods.Judging.FoundPackets
import CityPods.Moments.QuoteClips
import CityPods.Speakers.Overlap
import CityPods.Catalog.ContextBrackets
import CityPods.Speakers.Membership
import CityPods.Quality.KnownText
import CityPods.Tagging.ChapterBatches
import CityPods.Ops.ProviderLeases
import CityPods.Ops.ProviderSlots
import CityPods.Quality.TextAgreement
import CityPods.Dispatch.HeldReservations
import CityPods.Dispatch.JobHistory
import CityPods.StateSync.Journal
import CityPods.StateSync.Readable
