import Mathlib.Algebra.Group.Hom.Defs
import Mathlib.Algebra.Group.Pointwise.Set.Basic
import LedgerSyscoin.Common.Wallet
import LedgerSyscoin.Foundation.Costs

/-!
# Canonical satisfactions of miniscript

The witnesses with which a miniscript is satisfied or dissatisfied, with the number of
keys of the `CHECKMULTISIG`s that they execute. Only canonical witnesses are considered:
a wrong preimage does not dissatisfy a hash, since it can be replaced by any other one,
and an argument is only satisfied if the fragment asks for it.
-/

namespace LedgerSyscoin.Common

open Foundation List
open scoped Pointwise

/-- An element of the witness stack. -/
inductive WitnessElement where
  | signature (key : KeyPlaceholder)
  | publicKey (key : KeyPlaceholder)
  | preimage256 (token : Hash256Token) (h : Hash256)
  | preimage160 (token : Hash160Token) (h : Hash160)
  | empty
  | one

/-- A witness, with its last element on the top of the stack, and the number of keys of all the
`CHECKMULTISIG`s that are executed with it. -/
@[ext]
structure Spend where
  witness : List WitnessElement
  executedKeys : Nat

namespace Spend

instance : Zero Spend := ⟨⟨[], 0⟩⟩

instance : Add Spend :=
  ⟨fun below above => ⟨below.witness ++ above.witness, below.executedKeys + above.executedKeys⟩⟩

instance : AddMonoid Spend where
  add_assoc _ _ _ := Spend.ext (append_assoc _ _ _) (Nat.add_assoc _ _ _)
  zero_add _ := Spend.ext (nil_append _) (Nat.zero_add _)
  add_zero _ := Spend.ext (append_nil _) (Nat.add_zero _)
  nsmul := nsmulRec

/-- The number of elements of the witness. -/
def size : Spend →+ Nat where
  toFun spend := spend.witness.length
  map_zero' := rfl
  map_add' _ _ := length_append

def keys : Spend →+ Nat where
  toFun := executedKeys
  map_zero' := rfl
  map_add' _ _ := rfl

/-- A witness that executes no `CHECKMULTISIG`. -/
def push (witness : List WitnessElement) : Spend := ⟨witness, 0⟩

theorem size_apply (spend : Spend) : spend.size = spend.witness.length := rfl

@[simp]
theorem keys_push (witness : List WitnessElement) : (push witness).keys = 0 := rfl

end Spend

/-! ## Fragments -/

def keySatisfaction (key : KeyPlaceholder) : KeyToken → Spend
  | .pkK | .pk => .push [.signature key]
  | .pkH | .pkh | .wpkh => .push [.signature key, .publicKey key]

def keyDissatisfaction (key : KeyPlaceholder) : KeyToken → Spend
  | .pkK | .pk => .push [.empty]
  | .pkH | .pkh | .wpkh => .push [.empty, .publicKey key]

/-- The signatures of `k` of the keys, in their order, on top of the element that
`CHECKMULTISIG` drops. -/
def multisigSatisfactions (k : Nat) (keyPlaceholders : List KeyPlaceholder) :
    MultisigToken → Set Spend
  | .multi => { spend | ∃ signers : List KeyPlaceholder, signers.Sublist keyPlaceholders ∧
      signers.length = k ∧
      spend = ⟨.empty :: signers.map .signature, keyPlaceholders.length⟩ }
  | _ => ∅

def multisigDissatisfactions (k : Nat) (keyPlaceholders : List KeyPlaceholder) :
    MultisigToken → Set Spend
  | .multi => {⟨replicate (k + 1) .empty, keyPlaceholders.length⟩}
  | _ => ∅

/-- `t:X`, `l:X` and `u:X` are `and_v(X,1)`, `or_i(0,X)` and `or_i(X,0)`. -/
def wrapperSatisfactions (sat : Set Spend) : WrapperToken → Set Spend
  | .a | .s | .c | .t | .v | .j | .n => sat
  | .d | .u => sat + {.push [.one]}
  | .l => sat + {.push [.empty]}

def wrapperDissatisfactions (dsat : Set Spend) : WrapperToken → Set Spend
  | .a | .s | .c | .n => dsat
  | .t | .v => ∅
  | .d | .j => {.push [.empty]}
  | .l => {.push [.one]} ∪ (dsat + {.push [.empty]})
  | .u => (dsat + {.push [.one]}) ∪ {.push [.empty]}

/-- `and_n(X,Y)` is `andor(X,Y,0)`. -/
def script2Satisfactions (satX dsatX satY dsatY : Set Spend) : Script2Token → Set Spend
  | .andV | .andB | .andN => satY + satX
  | .orB => (dsatY + satX) ∪ (satY + dsatX)
  | .orC | .orD => satX ∪ (satY + dsatX)
  | .orI => (satX + {.push [.one]}) ∪ (satY + {.push [.empty]})

def script2Dissatisfactions (dsatX dsatY : Set Spend) : Script2Token → Set Spend
  | .andV | .orC => ∅
  | .andB | .orB | .orD => dsatY + dsatX
  | .andN => dsatX
  | .orI => (dsatX + {.push [.one]}) ∪ (dsatY + {.push [.empty]})

mutual

/-- The canonical satisfactions of a policy. -/
def satisfactions : PolicyNode → Set Spend
  | .constant .zero => ∅
  | .constant .one => {0}
  | .withKey token key => {keySatisfaction key token}
  | .withUint32 _ _ => {0}
  | .withHash256 token h => {.push [.preimage256 token h]}
  | .withHash160 token h => {.push [.preimage160 token h]}
  | .multisig token k keyPlaceholders => multisigSatisfactions k keyPlaceholders token
  | .wrapper token script => wrapperSatisfactions (satisfactions script) token
  | .withScript2 token first second =>
    script2Satisfactions (satisfactions first) (dissatisfactions first) (satisfactions second)
      (dissatisfactions second) token
  | .andor first second third =>
    (satisfactions second + satisfactions first) ∪ (satisfactions third + dissatisfactions first)
  | .thresh k scriptlist => threshSpends scriptlist k
  | .sh _ | .wsh _ | .tr _ _ => ∅

/-- The canonical dissatisfactions of a policy. -/
def dissatisfactions : PolicyNode → Set Spend
  | .constant .zero => {0}
  | .constant .one => ∅
  | .withKey token key => {keyDissatisfaction key token}
  | .withUint32 _ _ => ∅
  | .withHash256 _ _ => ∅
  | .withHash160 _ _ => ∅
  | .multisig token k keyPlaceholders => multisigDissatisfactions k keyPlaceholders token
  | .wrapper token script => wrapperDissatisfactions (dissatisfactions script) token
  | .withScript2 token first second =>
    script2Dissatisfactions (dissatisfactions first) (dissatisfactions second) token
  | .andor first _ third => dissatisfactions third + dissatisfactions first
  | .thresh _ scriptlist => threshSpends scriptlist 0
  | .sh _ | .wsh _ | .tr _ _ => ∅

/-- The witnesses that satisfy exactly `k` of the scripts and dissatisfy the others. -/
def threshSpends : List PolicyNode → Nat → Set Spend
  | [], 0 => {0}
  | [], _ + 1 => ∅
  | script :: rest, 0 => threshSpends rest 0 + dissatisfactions script
  | script :: rest, k + 1 =>
    (threshSpends rest k + satisfactions script) ∪
      (threshSpends rest (k + 1) + dissatisfactions script)

end

/-! ## Costs -/

/-- The costs of the witnesses of a threshold are those of the choices from its arguments. -/
theorem image_threshSpends (cost : Spend →+ Nat) (scriptlist : List PolicyNode) (k : Nat) :
    cost '' threshSpends scriptlist k =
      chooseCosts (scriptlist.map fun script =>
        (cost '' satisfactions script, cost '' dissatisfactions script)) k := by
  induction scriptlist generalizing k with
  | nil => cases k <;> simp [threshSpends, chooseCosts]
  | cons script rest ih =>
    cases k with
    | zero => rw [threshSpends, Set.image_add, ih, map_cons, chooseCosts, add_comm]
    | succ k =>
      rw [threshSpends, Set.image_union, Set.image_add, Set.image_add, ih, ih, map_cons,
        chooseCosts, add_comm, add_comm (chooseCosts _ (k + 1))]

end LedgerSyscoin.Common
