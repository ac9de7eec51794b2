import LedgerSyscoin.Common.Script
import LedgerSyscoin.Common.Wallet

/-!
# Command tables of the script compiler

Most fragments of a wallet policy are compiled by a table of commands: bytes to
emit, data of the node to push, and children to compile. A command marked with
`V` follows the `v:` wrapper when the fragment inherits it. The fragments
allowed in each kind of script are listed here too.
-/

namespace LedgerSyscoin.Handler

open Foundation Common

/-- A command of the generic processor. -/
inductive Command where
  | op (data : UInt8)
  | opV (data : UInt8)
  | pushPk
  | pushPkh
  | pushUint32
  | pushHash20
  | pushHash32
  | processChild (index : Nat)
  | processChildV (index : Nat)
  | processChildVV (index : Nat)
  deriving DecidableEq, Repr

/-! ## Leaves -/

def commands0 : List Command := [.opV op0]

def commands1 : List Command := [.opV op1]

def commandsPkK : List Command := [.pushPk]

def commandsPkH : List Command := [.op opDup, .op opHash160, .pushPkh, .op opEqualverify]

def commandsPk : List Command := [.pushPk, .opV opChecksig]

def commandsOlder : List Command := [.pushUint32, .opV opCsv]

def commandsAfter : List Command := [.pushUint32, .opV opCltv]

/-- A hash fragment: check that the preimage has 32 bytes, hash it and compare. The two
bytes `1, 32` are the push of the number 32. -/
def commandsHash (hashOp : UInt8) (pushHash : Command) : List Command :=
  [.op opSize, .op 1, .op 32, .op opEqualverify, .op hashOp, pushHash, .opV opEqual]

def commandsSha256 : List Command := commandsHash opSha256 .pushHash32

def commandsHash256 : List Command := commandsHash opHash256 .pushHash32

def commandsRipemd160 : List Command := commandsHash opRipemd160 .pushHash20

def commandsHash160 : List Command := commandsHash opHash160 .pushHash20

/-! ## Combinators -/

def commandsAndor : List Command :=
  [.processChild 0, .op opNotif, .processChild 2, .op opElse, .processChild 1, .opV opEndif]

def commandsAndV : List Command := [.processChild 0, .processChildV 1]

def commandsAndB : List Command := [.processChild 0, .processChild 1, .opV opBooland]

def commandsAndN : List Command :=
  [.processChild 0, .op opNotif, .op op0, .op opElse, .processChild 1, .opV opEndif]

def commandsOrB : List Command := [.processChild 0, .processChild 1, .opV opBoolor]

def commandsOrC : List Command := [.processChild 0, .op opNotif, .processChild 1, .opV opEndif]

def commandsOrD : List Command :=
  [.processChild 0, .op opIfdup, .op opNotif, .processChild 1, .opV opEndif]

def commandsOrI : List Command :=
  [.op opIf, .processChild 0, .op opElse, .processChild 1, .opV opEndif]

/-! ## Wrappers -/

def commandsA : List Command := [.op opToaltstack, .processChild 0, .op opFromaltstack]

def commandsS : List Command := [.op opSwap, .processChild 0]

def commandsC : List Command := [.processChild 0, .opV opChecksig]

def commandsT : List Command := [.processChild 0, .opV op1]

def commandsD : List Command := [.op opDup, .op opIf, .processChild 0, .opV opEndif]

def commandsV : List Command := [.processChildVV 0]

def commandsJ : List Command :=
  [.op opSize, .op op0notequal, .op opIf, .processChild 0, .opV opEndif]

def commandsN : List Command := [.processChild 0, .opV op0notequal]

def commandsL : List Command :=
  [.op opIf, .op op0, .op opElse, .processChild 0, .opV opEndif]

def commandsU : List Command :=
  [.op opIf, .processChild 0, .op opElse, .op op0, .opV opEndif]

/-- The command table of a fragment, for the fragments that have one. -/
def commandsOf : PolicyNodeType → Option (List Command)
  | .zero => some commands0
  | .one => some commands1
  | .pkK => some commandsPkK
  | .pkH => some commandsPkH
  | .pk => some commandsPk
  | .older => some commandsOlder
  | .after => some commandsAfter
  | .sha256 => some commandsSha256
  | .hash256 => some commandsHash256
  | .ripemd160 => some commandsRipemd160
  | .hash160 => some commandsHash160
  | .andor => some commandsAndor
  | .andV => some commandsAndV
  | .andB => some commandsAndB
  | .andN => some commandsAndN
  | .orB => some commandsOrB
  | .orC => some commandsOrC
  | .orD => some commandsOrD
  | .orI => some commandsOrI
  | .a => some commandsA
  | .s => some commandsS
  | .c => some commandsC
  | .t => some commandsT
  | .d => some commandsD
  | .v => some commandsV
  | .j => some commandsJ
  | .n => some commandsN
  | .l => some commandsL
  | .u => some commandsU
  | _ => none

/-! ## Fragments allowed in each kind of script -/

/-- The kinds of inner scripts. -/
inductive InternalScriptType where
  | sh | wsh | shWsh | tapscript
  deriving DecidableEq, Repr

def fragmentWhitelistSh : List PolicyNodeType := [.wpkh, .multi, .sortedmulti]

def fragmentWhitelistShWsh : List PolicyNodeType := [.multi, .sortedmulti]

def fragmentWhitelistWsh : List PolicyNodeType :=
  [.zero, .one, .pk, .pkh, .pkK, .pkH, .older, .after, .sha256, .hash256, .ripemd160, .hash160,
    .andor, .andV, .andB, .andN, .multi, .orB, .orC, .orD, .orI, .sortedmulti, .thresh,
    .a, .s, .c, .t, .d, .v, .j, .n, .l, .u]

def fragmentWhitelistTapscript : List PolicyNodeType := [.pk, .multiA, .sortedmultiA]

def fragmentWhitelist : InternalScriptType → List PolicyNodeType
  | .sh => fragmentWhitelistSh
  | .shWsh => fragmentWhitelistShWsh
  | .wsh => fragmentWhitelistWsh
  | .tapscript => fragmentWhitelistTapscript

end LedgerSyscoin.Handler
