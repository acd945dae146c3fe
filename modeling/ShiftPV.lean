import ShiftPV.Theorems.AbsenceAgreement
import ShiftPV.Theorems.AdvertisedCapacity
import ShiftPV.Theorems.BlockImage
import ShiftPV.Theorems.CausalAbsence
import ShiftPV.Theorems.ClaimExclusive
import ShiftPV.Theorems.CodecRoundTrip
import ShiftPV.Theorems.CopyReceipts
import ShiftPV.Theorems.DestinationIntent
import ShiftPV.Theorems.LocksExclusive
import ShiftPV.Theorems.MappingDecoded
import ShiftPV.Theorems.NodeReleased
import ShiftPV.Theorems.PhysicalHeadroom
import ShiftPV.Theorems.ProbeFreshness
import ShiftPV.Theorems.QuiesceGate
import ShiftPV.Theorems.ReclaimResume
import ShiftPV.Theorems.RetryFanout
import ShiftPV.Theorems.SingleMount
import ShiftPV.Theorems.TruthfulReceipts
import ShiftPV.Theorems.UnpublishOrder
import ShiftPV.Theorems.WorkDelivered
