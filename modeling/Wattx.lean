import Wattx.Checked
import Wattx.Txn
import Wattx.Params
import Wattx.Subsidy
import Wattx.StakeCoin
import Wattx.Erc20
import Wattx.ConstantProduct
import Wattx.Tally
import Wattx.SignedWord
import Wattx.Amm
import Wattx.Swap
import Wattx.SimpleDex
import Wattx.ShareValue
import Wattx.SwapReach
import Wattx.Solvency
import Wattx.Ledger
import Wattx.Registry
import Wattx.Uptime
import Wattx.Validators.ValidatorDb
import Wattx.Validators.Delegation
import Wattx.Validators.Conservation
import Wattx.Validators.Lifecycle
import Wattx.Validators.Authorization
import Wattx.Validators.RewardSplit
import Wattx.OfflineStake
import Wattx.Condensing
import Wattx.ContractAbi
import Wattx.AbiRoundTrip
import Wattx.AbiLayout
import Wattx.AbiTypeName
import Wattx.FloorSeries
import Wattx.Mantissa
import Wattx.Retarget.Compact
import Wattx.Retarget.MulExp
import Wattx.Retarget.NextWork
import Wattx.Kernel
import Wattx.ProofOfStake
import Wattx.Pricing
import Wattx.NetAddress
import Wattx.BitGroups
import Wattx.Base32
import Wattx.AddressRelay
import Wattx.PeerDiscovery
