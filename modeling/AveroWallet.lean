import AveroWallet.Int64
import AveroWallet.Transaction
import AveroWallet.SendEnv
import AveroWallet.Validation
import AveroWallet.Outputs
import AveroWallet.Narration
import AveroWallet.SendCoins
import AveroWallet.Dispatch
import AveroWallet.Balance
import AveroWallet.BalancePoll
import AveroWallet.ListCoins
import AveroWallet.Unlock
import AveroWallet.Outcome
