import Chit402.ConsistencyAgreementProofs
import Chit402.ChitAnchorProofs
import Chit402.EscrowEvidenceProofs
import Chit402.EscrowSoundProofs
import Chit402.EscrowCoverageProofs
import Chit402.EscrowReserveProofs
import Chit402.SpendHoldApiProofs
import Chit402.AnchorWitnessProofs
import Chit402.CheckInputProofs
import Chit402.ThetaLifeProofs
import Chit402.RevenueSolvencyProofs
import Chit402.LineHashProofs
import Chit402.ProofGateProofs
import Chit402.MatMulBindingProofs
import Chit402.ComputeMarketCustodyProofs
import Chit402.TransformerBlockProofs
import Chit402.GatewayCompleteProofs
import Chit402.SpendHoldAtomicProofs
import Chit402.EscrowWinnerProofs
import Chit402.OuterFieldsProofs
import Chit402.SolanaPayerProofs
import Chit402.BackfillChainProofs
import Chit402.LateSignerProofs
import Chit402.LateLeaseProofs
import Chit402.LateTurnProofs
import Chit402.LateClosedProofs
import Chit402.LateRecoveryProofs
import Chit402.Eip1559Proofs
import Chit402.DerProofs
import Chit402.VeXFExecutionProofs
import Chit402.ProviderExitProofs
import Chit402.RevenueSplitProofs
import Chit402.BoostAccountingProofs
import Chit402.CircuitBreakerProofs
import Chit402.AnchorMemoProofs
import Chit402.WeightsRootProofs
import Chit402.HoldClientProofs
import Chit402.InboundReceiptProofs
import Chit402.SessionActProofs
import Chit402.RequantProofs
import Chit402.Sp1GuestSeparationProofs
import Chit402.SpotCheckProofs
import Chit402.RollingSettlementProofs
import Chit402.HpkeContextProofs
import Chit402.StateTreeProofs
import Chit402.BookEscrowOnceProofs
