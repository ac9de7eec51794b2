import LedgerSyscoin.Common.Wallet.ExecutedKeys
import LedgerSyscoin.Common.Wallet.Soundness

/-!
# Sugared expressions

Six fragments are abbreviations of miniscript. The parser, the analysis and the
emitter treat each of them by rules of its own, next to the rules of the
fragments it stands for.
-/

namespace LedgerSyscoin.Common

open Foundation List

open PolicyNodeExtInfo (initial withTimelocks mixes)

section Analysis

variable (scratch : Nat → Int)

variable (x y : PolicyNodeExtInfo)

variable {scratch x y} {info : PolicyNodeExtInfo} {first second script : PolicyNode}

end Analysis

end LedgerSyscoin.Common
