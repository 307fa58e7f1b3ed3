import DisposalAudit.Main
import DisposalAudit.Session
import DisposalAudit.Proofs.StackMachine
import DisposalAudit.Proofs.WholeCounts
import DisposalAudit.Proofs.ReceiverSoundness
import DisposalAudit.Proofs.RoundedSigns
import DisposalAudit.Proofs.ReceiverPrecision
import DisposalAudit.Proofs.OpcodeSets
import DisposalAudit.Proofs.GuardDecision
import DisposalAudit.Proofs.Inheritance
import DisposalAudit.Proofs.BodyValidity
import DisposalAudit.Proofs.FirstFlaw
import DisposalAudit.Proofs.LoadOrder
import DisposalAudit.Proofs.DumpShape
import DisposalAudit.Proofs.BodyDecoding
import DisposalAudit.Proofs.SettledCalls
import DisposalAudit.Proofs.SessionHistory
import DisposalAudit.Proofs.StableLoads
import DisposalAudit.Proofs.GlobLanguage
import DisposalAudit.Proofs.MaskShortcut
import DisposalAudit.Proofs.WrittenReferences
import DisposalAudit.Proofs.SettingsReading
import DisposalAudit.Proofs.ShapeViolations
import DisposalAudit.Proofs.DumpReading
import DisposalAudit.Proofs.FoundFiles
import DisposalAudit.Proofs.Relocation
import DisposalAudit.Proofs.RunGains
import DisposalAudit.Proofs.RunLoops
import DisposalAudit.Proofs.RunAccounts
import DisposalAudit.Proofs.ScannedJson
import DisposalAudit.Proofs.WrittenJson
import DisposalAudit.Proofs.WrittenCounts
import DisposalAudit.Proofs.CheckOutcome
import DisposalAudit.Proofs.ScanTrace
import DisposalAudit.Proofs.Verbosity
import DisposalAudit.Proofs.AskedFacts
import DisposalAudit.Proofs.CachedFacts
import DisposalAudit.Proofs.PrintedReport
