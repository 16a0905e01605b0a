import EthosContracts.TtlVault.TtlBorrow
import EthosContracts.TtlVault.Ownership
import EthosContracts.TtlVault.Indexes
import EthosContracts.TtlVault.Signers
import EthosContracts.TtlVault.Revocation
import EthosContracts.TtlVault.Decay
import EthosContracts.TtlVault.Hibernation
import EthosContracts.TtlVault.LendingAccounts
import EthosContracts.TtlVault.HistoryArchive
import EthosContracts.TtlVault.Snapshots
import EthosContracts.TtlVault.Compression
import EthosContracts.TtlVault.SpendingLimit
import EthosContracts.TtlVault.Cliff
import EthosContracts.TtlVault.Lasting
import EthosContracts.TtlVault.AnonymousRelease
import EthosContracts.TtlVault.Approvals
import EthosContracts.TtlVault.ReleaseVotes
import EthosContracts.TtlVault.WithdrawalLimits
import EthosContracts.TtlVault.CheckInHistory
import EthosContracts.TtlVault.Payees
import EthosContracts.TtlVault.Milestones
import EthosContracts.TtlVault.Unvested
import EthosContracts.TtlVault.Upgrade
import EthosContracts.TtlVault.VaultNft
import EthosContracts.TtlVault.SliceVoting
import EthosContracts.ZkVerifier.Credentials
import EthosContracts.Sbt.Escrow
import EthosContracts.InsurancePool.Accounting
import EthosContracts.TtlVault.Burn
import EthosContracts.TtlVault.ClaimPayments
import EthosContracts.Backend.EventSourcing
import EthosContracts.Backend.RequestSigning
import EthosContracts.Backend.TwoFactor
import EthosContracts.TtlVault.WithdrawalAudit
import EthosContracts.TtlVault.VaultSnapshots
import EthosContracts.VaultYield.FailedCalls
import EthosContracts.TtlVault.AuditLog
import EthosContracts.TtlVault.Proposals
import EthosContracts.Backend.Deadlock
import EthosContracts.ZkVerifier.Masking
import EthosContracts.ZkVerifier.Consistency
import EthosContracts.ZkVerifier.Compression
import EthosContracts.Backend.Saga
import EthosContracts.Backend.Base32
