import Warmth.StaleAuthority
import Warmth.Accounting
import Warmth.Readiness
import Warmth.Boots
import Warmth.Attempts
import Warmth.FabricInterleaving
import Warmth.SaveLoad
import Warmth.SnapshotFile
import Warmth.Registry
import Warmth.Reloading
import Warmth.Attribution
import Warmth.Waiting
import Warmth.FabricReservations
import Warmth.ReleaseOwnership
import Warmth.Admission
import Warmth.Threads
import Warmth.AckAuthority
import Warmth.MessageRoundTrip
import Warmth.Worker
import Warmth.AckOrder
import Warmth.Network
import Warmth.Agreement
import Warmth.Tickets
import Warmth.Deliveries
import Warmth.Lanes
import Warmth.CurrentResults
import Warmth.EntrySteps
import Warmth.Generations
import Warmth.Reasons
import Warmth.CurrentReadiness
import Warmth.FabricReasons
import Warmth.LockDiscipline
import Warmth.ByteReader
import Warmth.Corruption
import Warmth.Frames
import Warmth.DecaySteps
import Warmth.GracePeriod
import Warmth.BudgetLedger
import Warmth.AttemptWindow
import Warmth.Fences
import Warmth.Superseded
import Warmth.CanonicalFiles
import Warmth.Introductions
import Warmth.Rounding
import Warmth.Nearest
import Warmth.Significant
import Warmth.NumberText
import Warmth.IdleTime
import Warmth.Composite
import Warmth.Plans
import Warmth.UsageLeak
import Warmth.Refusals
import Warmth.IdCodecs
import Warmth.SecureHash
import Warmth.StreamingHash
import Warmth.Numerals
import Warmth.Json
import Warmth.JsonParser
import Warmth.Consumption
import Warmth.Recognition
import Warmth.JsonTokens
import Warmth.JsonTrees
import Warmth.JsonElements
import Warmth.JsonUnicode
import Warmth.JsonGrammar
import Warmth.JsonSoundness
import Warmth.JsonReadBack
import Warmth.JsonEscapes
import Warmth.JsonRoundTrip
import Warmth.JsonNumbers
import Warmth.JsonAcceptance
import Warmth.Executions
import Warmth.Dispatches
import Warmth.JustifiedReadiness
import Warmth.NetworkRefinement
import Warmth.NetworkGenerations
import Warmth.Whereabouts
import Warmth.FrameDamage
import Warmth.AcceptedMessages
import Warmth.Stopping
import Warmth.Sending
import Warmth.FrameTransit
import Warmth.Settling
import Warmth.Quiescence
