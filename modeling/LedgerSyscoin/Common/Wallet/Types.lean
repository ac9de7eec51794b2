import LedgerSyscoin.Common.Wallet

/-!
# Miniscript types

The basic type and the modifiers that the template parser records in every
miniscript node, and for each fragment the rule that checks the types of the
children and computes the type of the node. A rule returns `none` where the
parser reports an invalid type.
-/

namespace LedgerSyscoin.Common

/-- The basic types of miniscript. -/
inductive MiniscriptType where
  | B | V | K | W
  deriving DecidableEq, Repr

/-- The flags of a miniscript node. Nodes that are not miniscript have none. -/
structure MiniscriptFlags where
  type : MiniscriptType
  modZ : Bool
  modO : Bool
  modN : Bool
  modD : Bool
  modU : Bool
  deriving DecidableEq, Repr

open MiniscriptType

/-! ## Leaves -/

def constantFlags : ConstantToken → MiniscriptFlags
  | .zero => ⟨B, true, false, false, true, true⟩
  | .one => ⟨B, true, false, false, false, true⟩

def keyFlags : KeyToken → Option MiniscriptFlags
  | .wpkh => none
  | .pk => some ⟨B, false, true, true, true, true⟩
  | .pkh => some ⟨B, false, false, true, true, true⟩
  | .pkK => some ⟨K, false, true, true, true, true⟩
  | .pkH => some ⟨K, false, false, true, true, true⟩

def timelockFlags : MiniscriptFlags := ⟨B, true, false, false, false, false⟩

def hashFlags : MiniscriptFlags := ⟨B, false, true, true, true, true⟩

def multisigFlags : MultisigToken → Option MiniscriptFlags
  | .sortedmulti => none
  | _ => some ⟨B, false, false, true, true, true⟩

/-! ## Combinators -/

/-- The modifier `o` of a fragment that always runs both of its children. -/
def bothModO (x y : MiniscriptFlags) : Bool := (x.modZ && y.modO) || (x.modO && y.modZ)

/-- The modifier `n` of a fragment that starts with its first child. -/
def bothModN (x y : MiniscriptFlags) : Bool := x.modN || (x.modZ && y.modN)

def andorFlags (x y z : MiniscriptFlags) : Option MiniscriptFlags :=
  if x.type ≠ B || !x.modD || !x.modU then none
  else if y.type ≠ z.type then none
  else if y.type = W then none
  else some ⟨y.type, x.modZ && y.modZ && z.modZ,
    (x.modZ && y.modO && z.modO) || (x.modO && y.modZ && z.modZ), false, z.modD,
    y.modU && z.modU⟩

def script2Flags : Script2Token → MiniscriptFlags → MiniscriptFlags → Option MiniscriptFlags
  | .andV, x, y =>
    if x.type ≠ V then none
    else if y.type = W then none
    else some ⟨y.type, x.modZ && y.modZ, bothModO x y, bothModN x y, false, y.modU⟩
  | .andB, x, y =>
    if x.type ≠ B || y.type ≠ W then none
    else some ⟨B, x.modZ && y.modZ, bothModO x y, bothModN x y, x.modD && y.modD, true⟩
  | .andN, x, y =>
    if x.type ≠ B || !x.modD || !x.modU then none
    else if y.type ≠ B then none
    else some ⟨B, x.modZ && y.modZ, x.modO && y.modZ, false, true, y.modU⟩
  | .orB, x, z =>
    if x.type ≠ B || !x.modD then none
    else if z.type ≠ W || !z.modD then none
    else some ⟨B, x.modZ && z.modZ, bothModO x z, false, true, true⟩
  | .orC, x, z =>
    if x.type ≠ B || !x.modD || !x.modU then none
    else if z.type ≠ V then none
    else some ⟨V, x.modZ && z.modZ, x.modO && z.modZ, false, false, false⟩
  | .orD, x, z =>
    if x.type ≠ B || !x.modD || !x.modU then none
    else if z.type ≠ B then none
    else some ⟨B, x.modZ && z.modZ, x.modO && z.modZ, false, z.modD, z.modU⟩
  | .orI, x, z =>
    if x.type = W then none
    else if x.type ≠ z.type then none
    else some ⟨x.type, false, x.modZ && z.modZ, false, x.modD || z.modD, x.modU && z.modU⟩

/-- The check of one child of a threshold: the first is of type `B`, the others of type
`W`, and all have the modifiers `d` and `u`. -/
def threshChildAllowed (first : Bool) (flags : MiniscriptFlags) : Bool :=
  flags.type = (if first then B else W) && flags.modD && flags.modU

/-- The flags of a threshold over children that passed their checks. -/
def threshFlags (flags : List MiniscriptFlags) : MiniscriptFlags :=
  ⟨B, flags.countP (·.modZ) = flags.length,
    flags.countP (·.modZ) + 1 = flags.length && flags.countP (·.modO) = 1, false, true, true⟩

/-! ## Wrappers -/

def wrapperFlags : WrapperToken → MiniscriptFlags → Option MiniscriptFlags
  | .a, x => if x.type ≠ B then none else some ⟨W, false, false, false, x.modD, x.modU⟩
  | .s, x =>
    if x.type ≠ B || !x.modO then none else some ⟨W, false, false, false, x.modD, x.modU⟩
  | .c, x => if x.type ≠ K then none else some ⟨B, false, x.modO, x.modN, x.modD, true⟩
  | .t, x => if x.type ≠ V then none else some ⟨B, x.modZ, x.modO, x.modN, false, true⟩
  | .d, x => if x.type ≠ V || !x.modZ then none else some ⟨B, false, true, true, true, false⟩
  | .v, x => if x.type ≠ B then none else some ⟨V, x.modZ, x.modO, x.modN, false, false⟩
  | .j, x =>
    if x.type ≠ B || !x.modN then none else some ⟨B, false, x.modO, true, true, x.modU⟩
  | .n, x => if x.type ≠ B then none else some ⟨B, x.modZ, x.modO, x.modN, x.modD, true⟩
  | .l, x => if x.type ≠ B then none else some ⟨B, false, x.modZ, false, true, x.modU⟩
  | .u, x => if x.type ≠ B then none else some ⟨B, false, x.modZ, false, true, x.modU⟩

/-! ## Nodes -/

mutual

/-- The flags that the parser stores in a node, or `none` for a node that is not
miniscript. -/
def storedFlags : PolicyNode → Option MiniscriptFlags
  | .constant token => some (constantFlags token)
  | .withKey token _ => keyFlags token
  | .withUint32 _ _ => some timelockFlags
  | .withHash256 _ _ => some hashFlags
  | .withHash160 _ _ => some hashFlags
  | .multisig token _ _ => multisigFlags token
  | .wrapper token script => do wrapperFlags token (← storedFlags script)
  | .withScript2 token first second => do
    script2Flags token (← storedFlags first) (← storedFlags second)
  | .andor first second third => do
    andorFlags (← storedFlags first) (← storedFlags second) (← storedFlags third)
  | .thresh _ scriptlist => do return threshFlags (← storedFlagsList scriptlist)
  | .sh _ | .wsh _ | .tr _ _ => none

def storedFlagsList : List PolicyNode → Option (List MiniscriptFlags)
  | [] => some []
  | script :: rest => do return (← storedFlags script) :: (← storedFlagsList rest)

end

end LedgerSyscoin.Common
