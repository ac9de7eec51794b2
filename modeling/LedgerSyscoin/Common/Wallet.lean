import LedgerSyscoin.Foundation.Bytes

/-!
# Wallet policies

The abstract syntax of descriptor templates. The node kinds are those of the source:
constants, nodes with a key or a number, hash images, multisignatures, wrappers with one
child, combinators with two or three children, thresholds, and the top-level script
types.
-/

namespace LedgerSyscoin.Common

open Foundation List

/-! ## Tokens -/

/-- The token of a policy node. -/
inductive PolicyNodeType where
  | sh | wsh | pk | pkh | wpkh | multi | multiA | sortedmulti | sortedmultiA | tr
  | zero | one | pkK | pkH | older | after | sha256 | hash256 | ripemd160 | hash160
  | andor | andV | andB | andN | orB | orC | orD | orI | thresh
  | a | s | c | t | d | v | j | n | l | u
  deriving DecidableEq, Repr

inductive ConstantToken where
  | zero | one
  deriving DecidableEq, Repr

inductive KeyToken where
  | pk | pkh | wpkh | pkK | pkH
  deriving DecidableEq, Repr

inductive TimelockToken where
  | older | after
  deriving DecidableEq, Repr

inductive Hash256Token where
  | sha256 | hash256
  deriving DecidableEq, Repr

inductive Hash160Token where
  | ripemd160 | hash160
  deriving DecidableEq, Repr

inductive MultisigToken where
  | multi | multiA | sortedmulti | sortedmultiA
  deriving DecidableEq, Repr

inductive WrapperToken where
  | a | s | c | t | d | v | j | n | l | u
  deriving DecidableEq, Repr

inductive Script2Token where
  | andV | andB | andN | orB | orC | orD | orI
  deriving DecidableEq, Repr

/-! ## Syntax trees -/

/-- A key placeholder: an index into the key information list and the two numbers of
the final derivation step `/<num_first;num_second>/*`. -/
structure KeyPlaceholder where
  numFirst : UInt32
  numSecond : UInt32
  keyIndex : Nat
  deriving DecidableEq, Repr

/-- The largest number of keys of a multisignature. -/
def maxPubkeysPerMultisig : Nat := 16

/-- A 32-byte hash image. -/
abbrev Hash256 := { bytes : Bytes // bytes.length = 32 }

/-- A 20-byte hash image. -/
abbrev Hash160 := { bytes : Bytes // bytes.length = 20 }

mutual

/-- A node of a wallet policy. -/
inductive PolicyNode where
  | constant (token : ConstantToken)
  | withKey (token : KeyToken) (keyPlaceholder : KeyPlaceholder)
  | withUint32 (token : TimelockToken) (n : UInt32)
  | withHash256 (token : Hash256Token) (h : Hash256)
  | withHash160 (token : Hash160Token) (h : Hash160)
  | multisig (token : MultisigToken) (k : Nat) (keyPlaceholders : List KeyPlaceholder)
  | wrapper (token : WrapperToken) (script : PolicyNode)
  | withScript2 (token : Script2Token) (first second : PolicyNode)
  | andor (first second third : PolicyNode)
  | thresh (k : Nat) (scriptlist : List PolicyNode)
  | sh (script : PolicyNode)
  | wsh (script : PolicyNode)
  | tr (keyPlaceholder : KeyPlaceholder) (tree : Option PolicyTree)

/-- A tree of scripts inside `tr`. -/
inductive PolicyTree where
  | leaf (script : PolicyNode)
  | branch (leftTree rightTree : PolicyTree)

end

/-- The scripts of a tree, from left to right. -/
def PolicyTree.leaves : PolicyTree → List PolicyNode
  | .leaf script => [script]
  | .branch leftTree rightTree => leftTree.leaves ++ rightTree.leaves

def ConstantToken.type : ConstantToken → PolicyNodeType
  | .zero => .zero
  | .one => .one

def KeyToken.type : KeyToken → PolicyNodeType
  | .pk => .pk
  | .pkh => .pkh
  | .wpkh => .wpkh
  | .pkK => .pkK
  | .pkH => .pkH

def TimelockToken.type : TimelockToken → PolicyNodeType
  | .older => .older
  | .after => .after

def Hash256Token.type : Hash256Token → PolicyNodeType
  | .sha256 => .sha256
  | .hash256 => .hash256

def Hash160Token.type : Hash160Token → PolicyNodeType
  | .ripemd160 => .ripemd160
  | .hash160 => .hash160

def MultisigToken.type : MultisigToken → PolicyNodeType
  | .multi => .multi
  | .multiA => .multiA
  | .sortedmulti => .sortedmulti
  | .sortedmultiA => .sortedmultiA

def WrapperToken.type : WrapperToken → PolicyNodeType
  | .a => .a
  | .s => .s
  | .c => .c
  | .t => .t
  | .d => .d
  | .v => .v
  | .j => .j
  | .n => .n
  | .l => .l
  | .u => .u

def Script2Token.type : Script2Token → PolicyNodeType
  | .andV => .andV
  | .andB => .andB
  | .andN => .andN
  | .orB => .orB
  | .orC => .orC
  | .orD => .orD
  | .orI => .orI

namespace PolicyNode

/-- The token of a node. -/
def type : PolicyNode → PolicyNodeType
  | constant token => token.type
  | withKey token _ => token.type
  | withUint32 token _ => token.type
  | withHash256 token _ => token.type
  | withHash160 token _ => token.type
  | multisig token _ _ => token.type
  | wrapper token _ => token.type
  | withScript2 token _ _ => token.type
  | andor _ _ _ => .andor
  | thresh _ _ => .thresh
  | sh _ => .sh
  | wsh _ => .wsh
  | tr _ _ => .tr

/-- The child scripts of a node with a fixed number of them. -/
def scripts : PolicyNode → List PolicyNode
  | wrapper _ script => [script]
  | withScript2 _ first second => [first, second]
  | andor first second third => [first, second, third]
  | sh script => [script]
  | wsh script => [script]
  | _ => []

/-- All the child scripts of a node. The leaves of a script tree are not children:
they are compiled on their own. -/
def children : PolicyNode → List PolicyNode
  | thresh _ scriptlist => scriptlist
  | node => node.scripts

/-- The key placeholders a node holds itself. -/
def keyPlaceholders : PolicyNode → List KeyPlaceholder
  | withKey _ keyPlaceholder => [keyPlaceholder]
  | multisig _ _ keyPlaceholders => keyPlaceholders
  | tr keyPlaceholder _ => [keyPlaceholder]
  | _ => []

end PolicyNode

/-! ## Induction over the nodes of a script -/

section Induction

variable {motive : PolicyNode → Prop}

mutual

private theorem inductNode (step : ∀ node, (∀ child ∈ node.children, motive child) → motive node) :
    ∀ node, motive node
  | .constant _ => step _ (fun _ mem => nomatch mem)
  | .withKey _ _ => step _ (fun _ mem => nomatch mem)
  | .withUint32 _ _ => step _ (fun _ mem => nomatch mem)
  | .withHash256 _ _ => step _ (fun _ mem => nomatch mem)
  | .withHash160 _ _ => step _ (fun _ mem => nomatch mem)
  | .multisig _ _ _ => step _ (fun _ mem => nomatch mem)
  | .wrapper _ script => step _ (forall_mem_singleton.mpr (inductNode step script))
  | .withScript2 _ first second =>
    step _ (forall_mem_cons.mpr ⟨inductNode step first,
      forall_mem_singleton.mpr (inductNode step second)⟩)
  | .andor first second third =>
    step _ (forall_mem_cons.mpr ⟨inductNode step first, forall_mem_cons.mpr ⟨inductNode step second,
        forall_mem_singleton.mpr (inductNode step third)⟩⟩)
  | .thresh k scriptlist => step (.thresh k scriptlist) (inductList step scriptlist)
  | .sh script => step _ (forall_mem_singleton.mpr (inductNode step script))
  | .wsh script => step _ (forall_mem_singleton.mpr (inductNode step script))
  | .tr _ _ => step _ (fun _ mem => nomatch mem)

private theorem inductList (step : ∀ node, (∀ child ∈ node.children, motive child) → motive node) :
    ∀ nodes : List PolicyNode, ∀ child ∈ nodes, motive child
  | [] => fun _ mem => nomatch mem
  | node :: nodes => forall_mem_cons.mpr ⟨inductNode step node, inductList step nodes⟩

end

/-- A property holds of every node if it holds of a node as soon as it holds of the
node's children. -/
theorem PolicyNode.induction (step : ∀ node, (∀ child ∈ node.children, motive child) → motive node)
    (node : PolicyNode) : motive node :=
  inductNode step node

end Induction

namespace PolicyNode

variable {scriptlist : List PolicyNode} {child node inner : PolicyNode}

mutual

/-- All the nodes of the script a node is the root of. -/
def nodes : PolicyNode → List PolicyNode
  | wrapper token script => wrapper token script :: nodes script
  | withScript2 token first second =>
    withScript2 token first second :: (nodes first ++ nodes second)
  | andor first second third =>
    andor first second third :: (nodes first ++ (nodes second ++ nodes third))
  | thresh k scriptlist => thresh k scriptlist :: nodesList scriptlist
  | sh script => sh script :: nodes script
  | wsh script => wsh script :: nodes script
  | node => [node]

def nodesList : List PolicyNode → List PolicyNode
  | [] => []
  | node :: rest => nodes node ++ nodesList rest

end

mutual

/-- The nesting depth of a script: the number of nodes on its longest branch. -/
def depth : PolicyNode → Nat
  | wrapper _ script => depth script + 1
  | withScript2 _ first second => max (depth first) (depth second) + 1
  | andor first second third => max (depth first) (max (depth second) (depth third)) + 1
  | thresh _ scriptlist => depthList scriptlist + 1
  | sh script => depth script + 1
  | wsh script => depth script + 1
  | _ => 1

def depthList : List PolicyNode → Nat
  | [] => 0
  | node :: rest => max (depth node) (depthList rest)

end

theorem nodes_of_mem_nodesList (mem : child ∈ scriptlist) : nodes child ⊆ nodesList scriptlist := by
  induction scriptlist with
  | nil => cases mem
  | cons node rest ih =>
    rw [nodesList]
    rcases mem_cons.mp mem with rfl | later
    · exact subset_append_left _ _
    · exact subset_append_of_subset_right _ (ih later)

theorem mem_nodes_self (node : PolicyNode) : node ∈ node.nodes := by
  cases node <;> simp [nodes]

theorem nodes_child_subset (mem : child ∈ node.children) : child.nodes ⊆ node.nodes := by
  cases node <;> simp only [children, scripts, mem_cons, not_mem_nil, or_false] at mem
  case thresh k scriptlist =>
      rw [nodes]
      exact subset_cons_of_subset _ (nodes_of_mem_nodesList mem)
  all_goals
    intro inner innerMem
    rw [nodes]
    grind

theorem mem_nodesList_iff :
    inner ∈ nodesList scriptlist ↔ ∃ child ∈ scriptlist, inner ∈ child.nodes := by
  induction scriptlist with
  | nil => simp [nodesList]
  | cons node rest ih => simp [nodesList, ih]

theorem mem_nodes_iff :
    inner ∈ node.nodes ↔ inner = node ∨ ∃ child ∈ node.children, inner ∈ child.nodes := by
  cases node <;> simp [nodes, children, scripts, mem_nodesList_iff]

theorem nodes_of_childless (childless : node.children = []) : node.nodes = [node] := by
  cases node <;> simp_all [nodes, children, scripts, nodesList]

theorem nodes_subset (mem : inner ∈ node.nodes) : inner.nodes ⊆ node.nodes := by
  refine PolicyNode.induction (motive := fun node => inner ∈ node.nodes →
    inner.nodes ⊆ node.nodes) (fun node ih mem => ?_) node mem
  rcases mem_nodes_iff.mp mem with rfl | ⟨child, childMem, innerMem⟩
  · exact List.Subset.refl _
  · exact List.Subset.trans (ih child childMem innerMem) (nodes_child_subset childMem)

/-- A property that children inherit holds of all the nodes of a script if it holds of its
root. -/
theorem forall_nodes_of_child {property : PolicyNode → Prop}
    (inherits : ∀ node, property node → ∀ child ∈ node.children, property child)
    {root : PolicyNode} (holds : property root) : ∀ inner ∈ root.nodes, property inner := by
  refine PolicyNode.induction (motive := fun node => property node →
    ∀ inner ∈ node.nodes, property inner) (fun node ih nodeHolds inner mem => ?_) root holds
  rcases mem_nodes_iff.mp mem with rfl | ⟨child, childMem, innerMem⟩
  · exact nodeHolds
  · exact ih child childMem (inherits node nodeHolds child childMem) inner innerMem

theorem depth_le_depthList (mem : child ∈ scriptlist) : depth child ≤ depthList scriptlist := by
  induction scriptlist with
  | nil => cases mem
  | cons node rest ih =>
    rw [depthList]
    rcases mem_cons.mp mem with rfl | later
    · exact le_max_left _ _
    · exact le_trans (ih later) (le_max_right _ _)

theorem depthList_le {bound : Nat}
    (each : ∀ child ∈ scriptlist, depth child ≤ bound) : depthList scriptlist ≤ bound := by
  induction scriptlist with
  | nil => exact Nat.zero_le bound
  | cons node rest ih =>
    obtain ⟨first, others⟩ := forall_mem_cons.mp each
    rw [depthList]
    exact max_le first (ih others)

theorem depth_le_of_children {bound : Nat}
    (each : ∀ child ∈ node.children, child.depth ≤ bound) : node.depth ≤ bound + 1 := by
  cases node with
  | thresh k scriptlist => exact Nat.succ_le_succ (depthList_le each)
  | wrapper | withScript2 | andor | sh | wsh =>
    simp only [children, scripts, forall_mem_cons] at each
    rw [depth]
    omega
  | _ => exact Nat.succ_le_succ (Nat.zero_le bound)

theorem depth_pos (node : PolicyNode) : 0 < node.depth := by
  cases node <;> simp [depth]

theorem depth_child_lt (mem : child ∈ node.children) : child.depth < node.depth := by
  cases node <;> simp only [children, scripts, mem_cons, not_mem_nil, or_false] at mem
  case thresh k scriptlist =>
      rw [depth]
      exact Nat.lt_succ_of_le (depth_le_depthList mem)
  all_goals
    rw [depth]
    grind

end PolicyNode

/-! ## Placeholders -/

mutual

/-- The placeholders of a policy from left to right, as the template has them. -/
def templateKeys : PolicyNode → List KeyPlaceholder
  | .withKey _ key => [key]
  | .multisig _ _ keyPlaceholders => keyPlaceholders
  | .wrapper _ script => templateKeys script
  | .withScript2 _ first second => templateKeys first ++ templateKeys second
  | .andor first second third => templateKeys first ++ templateKeys second ++ templateKeys third
  | .thresh _ scriptlist => templateKeysOfList scriptlist
  | .sh script => templateKeys script
  | .wsh script => templateKeys script
  | .tr key none => [key]
  | .tr key (some tree) => key :: templateKeysOfTree tree
  | .constant _ | .withUint32 _ _ | .withHash256 _ _ | .withHash160 _ _ => []

def templateKeysOfList : List PolicyNode → List KeyPlaceholder
  | [] => []
  | script :: rest => templateKeys script ++ templateKeysOfList rest

def templateKeysOfTree : PolicyTree → List KeyPlaceholder
  | .leaf script => templateKeys script
  | .branch left right => templateKeysOfTree left ++ templateKeysOfTree right

end

end LedgerSyscoin.Common
