import SliceAgent.Main
import SliceAgent.Proofs.AdoptedSlices
import SliceAgent.Proofs.AgentRestart
import SliceAgent.Proofs.CardBudget
import SliceAgent.Proofs.CommutingClaims
import SliceAgent.Proofs.ConfigPrecedence
import SliceAgent.Proofs.IsolatedClaims
import SliceAgent.Proofs.ReleasedNames
import SliceAgent.Proofs.RestoredCards
import SliceAgent.Proofs.RetriedClaims
import SliceAgent.Proofs.SpecifiedClaims
import SliceAgent.Proofs.StraySpecs
import SliceAgent.Proofs.MergedSettings
import SliceAgent.Proofs.RecordIntegrity
import SliceAgent.Proofs.PreparedDevices
import SliceAgent.Proofs.NamedTemplates
import SliceAgent.Proofs.RefusedCalls
import SliceAgent.Proofs.SortedFit
import SliceAgent.Proofs.AdvertisedShapes
import SliceAgent.Proofs.ClassNames
import SliceAgent.Proofs.RegisteredCards
import SliceAgent.Proofs.ConfigLaws
import SliceAgent.Proofs.ClassStores
import SliceAgent.Proofs.VendorTable
import SliceAgent.Proofs.SpelledIds
import SliceAgent.Proofs.SelectedCards
import SliceAgent.Proofs.ClaimForm
