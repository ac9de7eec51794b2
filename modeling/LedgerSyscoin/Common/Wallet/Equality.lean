import LedgerSyscoin.Common.Wallet

/-!
# Equality of policies

Policies are nested trees, for which the equality test is not derived. It is
written out here, so that statements on concrete templates can be evaluated.
-/

namespace LedgerSyscoin.Common

mutual

/-- Whether two policies are the same. -/
def PolicyNode.same : PolicyNode → PolicyNode → Bool
  | .constant token, .constant token' => token = token'
  | .withKey token key, .withKey token' key' => token = token' && key = key'
  | .withUint32 token n, .withUint32 token' n' => token = token' && n = n'
  | .withHash256 token h, .withHash256 token' h' => token = token' && h = h'
  | .withHash160 token h, .withHash160 token' h' => token = token' && h = h'
  | .multisig token k keys, .multisig token' k' keys' => token = token' && k = k' && keys = keys'
  | .wrapper token x, .wrapper token' x' => token = token' && x.same x'
  | .withScript2 token x y, .withScript2 token' x' y' =>
    token = token' && x.same x' && y.same y'
  | .andor x y z, .andor x' y' z' => x.same x' && y.same y' && z.same z'
  | .thresh k xs, .thresh k' xs' => k = k' && sameScripts xs xs'
  | .sh x, .sh x' => x.same x'
  | .wsh x, .wsh x' => x.same x'
  | .tr key tree, .tr key' tree' => key = key' && sameTree tree tree'
  | _, _ => false

def sameScripts : List PolicyNode → List PolicyNode → Bool
  | [], [] => true
  | x :: xs, x' :: xs' => x.same x' && sameScripts xs xs'
  | _, _ => false

def PolicyTree.same : PolicyTree → PolicyTree → Bool
  | .leaf x, .leaf x' => x.same x'
  | .branch left right, .branch left' right' => left.same left' && right.same right'
  | _, _ => false

def sameTree : Option PolicyTree → Option PolicyTree → Bool
  | none, none => true
  | some tree, some tree' => tree.same tree'
  | _, _ => false

end

mutual

theorem PolicyNode.same_iff : ∀ left right : PolicyNode, left.same right = true ↔ left = right
  | .wrapper _ x, right => by
    cases right <;> simp [PolicyNode.same, x.same_iff]
  | .withScript2 _ x y, right => by
    cases right <;> simp [PolicyNode.same, x.same_iff, y.same_iff, and_assoc]
  | .andor x y z, right => by
    cases right <;> simp [PolicyNode.same, x.same_iff, y.same_iff, z.same_iff, and_assoc]
  | .thresh _ xs, right => by
    cases right <;> simp [PolicyNode.same, sameScripts_iff xs]
  | .sh x, right => by
    cases right <;> simp [PolicyNode.same, x.same_iff]
  | .wsh x, right => by
    cases right <;> simp [PolicyNode.same, x.same_iff]
  | .tr _ tree, right => by
    cases right <;> simp [PolicyNode.same, sameTree_iff tree]
  | .constant _, right => by cases right <;> simp [PolicyNode.same]
  | .withKey _ _, right => by cases right <;> simp [PolicyNode.same]
  | .withUint32 _ _, right => by cases right <;> simp [PolicyNode.same]
  | .withHash256 _ _, right => by cases right <;> simp [PolicyNode.same]
  | .withHash160 _ _, right => by cases right <;> simp [PolicyNode.same]
  | .multisig _ _ _, right => by cases right <;> simp [PolicyNode.same, and_assoc]

theorem sameScripts_iff : ∀ left right, sameScripts left right = true ↔ left = right
  | [], right => by cases right <;> simp [sameScripts]
  | x :: xs, right => by
    cases right <;> simp [sameScripts, x.same_iff, sameScripts_iff xs]

theorem PolicyTree.same_iff : ∀ left right : PolicyTree, left.same right = true ↔ left = right
  | .leaf x, right => by cases right <;> simp [PolicyTree.same, x.same_iff]
  | .branch x y, right => by
    cases right <;> simp [PolicyTree.same, x.same_iff, y.same_iff]

theorem sameTree_iff : ∀ left right, sameTree left right = true ↔ left = right
  | none, right => by cases right <;> simp [sameTree]
  | some tree, right => by cases right <;> simp [sameTree, tree.same_iff]

end

instance : DecidableEq PolicyNode := fun left right =>
  decidable_of_iff _ (PolicyNode.same_iff left right)

end LedgerSyscoin.Common
