import RegistryConsent.Bytes.Quoted
import RegistryConsent.Credential.Indexed
import RegistryConsent.Credential.Redacted
import RegistryConsent.Json.Text
import RegistryConsent.Policy.Load
import RegistryConsent.Store.Faulty
import RegistryConsent.Store.Persistent
import RegistryConsent.Store.Session
import RegistryConsent.Strategy.Scripted
import RegistryConsent.Trial
import RegistryConsent.Proofs.Consultation
import RegistryConsent.Proofs.Registry
import RegistryConsent.Proofs.Decision
import RegistryConsent.Proofs.Override
import RegistryConsent.Proofs.Deferral
import RegistryConsent.Proofs.Verdict
import RegistryConsent.Proofs.Consent
import RegistryConsent.Proofs.RouteConsent
import RegistryConsent.Proofs.Aggregation
import RegistryConsent.Proofs.Status
import RegistryConsent.Proofs.Alike
import RegistryConsent.Proofs.Resubmission
import RegistryConsent.Proofs.Conferral
import RegistryConsent.Proofs.OverrideRefusal
import RegistryConsent.Proofs.StrategyOrder
import RegistryConsent.Proofs.MoreProof
import RegistryConsent.Proofs.Stores
import RegistryConsent.Proofs.RecordText
import RegistryConsent.Proofs.SignedRecord
import RegistryConsent.Proofs.ContextHistory
import RegistryConsent.Proofs.Reevaluation
import RegistryConsent.Proofs.FailedLookups
import RegistryConsent.Proofs.GoverningVersion
import RegistryConsent.Proofs.TrustedRanges
import RegistryConsent.Proofs.AuthLines
import RegistryConsent.Proofs.RecordGrammar
import RegistryConsent.Proofs.OverrideReadings
import RegistryConsent.Proofs.RegistryUnion
import RegistryConsent.Proofs.HashText
import RegistryConsent.Proofs.SetupFaults
import RegistryConsent.Proofs.Submissions
import RegistryConsent.Proofs.Migration
import RegistryConsent.Proofs.HandleKeys
import RegistryConsent.Proofs.MaintainerLists
import RegistryConsent.Proofs.Digits
import RegistryConsent.Proofs.AddressText
import RegistryConsent.Proofs.RangeText
import RegistryConsent.Proofs.JsonText
import RegistryConsent.Proofs.PolicyJson
import RegistryConsent.Proofs.InjectedFaults
