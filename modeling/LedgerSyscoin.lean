import LedgerSyscoin.Boilerplate.Io
import LedgerSyscoin.Common.OutputScript
import LedgerSyscoin.Common.Wallet.Desugaring
import LedgerSyscoin.Common.Wallet.Evaluation
import LedgerSyscoin.Handler.Lib.StreamBuffers
import LedgerSyscoin.Handler.Lib.Policy.SortedKeys
import LedgerSyscoin.Handler.Lib.Policy.Guarantees
import LedgerSyscoin.Handler.Lib.Policy.KeyUse
import LedgerSyscoin.Handler.SignPsbt.Bip341
import LedgerSyscoin.Handler.SignMessage
import LedgerSyscoin.Swap.HandleSwapSignTransaction
import LedgerSyscoin.Handler.SignPsbt.Legacy
import LedgerSyscoin.Common.Wallet.TypeInvariants
import LedgerSyscoin.Handler.Lib.PsbtParseRawtx.ScriptSize
import LedgerSyscoin.Client.Equivalence
import LedgerSyscoin.Client.Session
import LedgerSyscoin.Client.WalletPolicy
import LedgerSyscoin.Client.PartialSignature
import LedgerSyscoin.Client.PsbtV2
