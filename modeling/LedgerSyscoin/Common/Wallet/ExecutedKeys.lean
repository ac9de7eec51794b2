import LedgerSyscoin.Common.Wallet.Costs

/-!
# Executed keys of satisfactions

The number of keys in executed `CHECKMULTISIG`s against the canonical
satisfactions. It is a bound under a condition on `andor`, whose rule takes the
dissatisfaction of the wrong argument, and on the wrappers `l` and `u`, whose rule
forgets one dissatisfaction.
-/

namespace LedgerSyscoin.Common

open Foundation List
open scoped Pointwise

variable {info x y : PolicyNodeExtInfo} {k : Nat} {sat dsat : Set Spend}

/-! ## Fragments -/

/-- The numbers of keys of the analysis are related to those of sets of satisfactions and
dissatisfactions. -/
def RelatesKeys (relation : Set Nat → Int → Prop) (sat dsat : Set Spend) (ops : MiniscriptOps) :
    Prop :=
  relation (Spend.keys '' sat) ops.sat ∧ relation (Spend.keys '' dsat) ops.dsat

/-- The numbers of keys of the analysis bound those of sets of satisfactions and
dissatisfactions. -/
def BoundsKeys (sat dsat : Set Spend) (ops : MiniscriptOps) : Prop :=
  BoundsCosts maxCost (Spend.keys '' sat) ops.sat ∧
    BoundsCosts maxCost (Spend.keys '' dsat) ops.dsat

section Fragments

variable {relation : Set Nat → Int → Prop} (respects : CostRelation maxCost relation)

include respects

theorem related_none : relation (Spend.keys '' ∅) (-1) := by
  rw [Set.image_empty]
  exact respects.empty

theorem related_push (witness : List WitnessElement) :
    relation (Spend.keys '' {.push witness}) 0 := by
  rw [Set.image_singleton, Spend.keys_push]
  exact respects.zero

omit respects in
/-- Elements that are only pushed execute no keys. -/
theorem image_keys_add_push (spends : Set Spend) (witness : List WitnessElement) :
    Spend.keys '' (spends + {.push witness}) = Spend.keys '' spends := by
  rw [Set.image_add, Set.image_singleton, Spend.keys_push, Set.singleton_zero, add_zero]

/-- The rule of the wrappers but `l` and `u`. -/
theorem relatesKeys_wrapper (child : RelatesKeys relation sat dsat x.ops) {token : WrapperToken}
    (notBranch : ¬(token = .l ∨ token = .u)) :
    RelatesKeys relation (wrapperSatisfactions sat token) (wrapperDissatisfactions dsat token)
      (wrapperExtInfo x token).ops := by
  obtain ⟨satRelated, dsatRelated⟩ := child
  cases token <;>
    simp only [RelatesKeys, wrapperSatisfactions, wrapperDissatisfactions, image_keys_add_push]
  case d => exact ⟨satRelated, related_push respects _⟩
  case j => exact ⟨satRelated, related_push respects _⟩
  case t => exact ⟨satRelated, related_none respects⟩
  case v => exact ⟨satRelated, related_none respects⟩
  case l => exact absurd (.inl rfl) notBranch
  case u => exact absurd (.inr rfl) notBranch
  all_goals exact ⟨satRelated, dsatRelated⟩

/-- The rules of the combinators of two scripts but `and_n`. -/
theorem relatesKeys_script2 {satX dsatX satY dsatY : Set Spend}
    (left : RelatesKeys relation satX dsatX x.ops) (right : RelatesKeys relation satY dsatY y.ops)
    {token : Script2Token} (notAndN : token ≠ .andN) :
    RelatesKeys relation (script2Satisfactions satX dsatX satY dsatY token)
      (script2Dissatisfactions dsatX dsatY token) (script2ExtInfo x y token).ops := by
  obtain ⟨satX, dsatX⟩ := left
  obtain ⟨satY, dsatY⟩ := right
  have both := respects.add satX satY
  have neither := respects.add dsatX dsatY
  have onlyX := respects.add satX dsatY
  have onlyY := respects.add satY dsatX
  rw [add_comm] at both neither onlyX
  cases token <;>
    simp only [RelatesKeys, script2Satisfactions, script2Dissatisfactions, Set.image_union,
      Set.image_add]
  case andV => exact ⟨both, related_none respects⟩
  case andB => exact ⟨both, neither⟩
  case andN => exact absurd rfl notAndN
  case orB => exact ⟨respects.union onlyX onlyY, neither⟩
  case orC => exact ⟨respects.union satX onlyY, related_none respects⟩
  case orD => exact ⟨respects.union satX onlyY, neither⟩
  case orI =>
    simp only [← Set.image_add, image_keys_add_push]
    exact ⟨respects.union satX satY, respects.union dsatX dsatY⟩

end Fragments

theorem boundsCosts_keys (spend : Spend) :
    BoundsCosts maxCost (Spend.keys '' {spend}) spend.executedKeys := by
  rw [Set.image_singleton]
  exact boundsCosts_singleton _

/-- Both `l` and `u` take the dissatisfaction of their argument, which must exist. -/
theorem boundsKeys_branch (child : BoundsKeys sat dsat x.ops) {token : WrapperToken}
    (isBranch : token = .l ∨ token = .u) (nonempty : dsat.Nonempty) :
    BoundsKeys (wrapperSatisfactions sat token) (wrapperDissatisfactions dsat token)
      (wrapperExtInfo x token).ops := by
  obtain ⟨satBound, dsatBound⟩ := child
  have pushed (witness : List WitnessElement) :
      BoundsCosts maxCost (Spend.keys '' {.push witness}) x.ops.dsat := by
    obtain ⟨_, mem⟩ := nonempty
    have nonneg := dsatBound _ (Set.mem_image_of_mem _ mem)
    refine (boundsCosts_keys (.push witness)).mono (Set.Subset.refl _) ?_
    simp only [Spend.push]
    omega
  rcases isBranch with rfl | rfl <;>
    simp only [BoundsKeys, wrapperSatisfactions, wrapperDissatisfactions, Set.image_union,
      image_keys_add_push]
  · exact ⟨satBound, (pushed _).both dsatBound⟩
  · exact ⟨satBound, dsatBound.both (pushed _)⟩

/-- The rule of `and_n` also allows for a dissatisfaction of the second script, which never
happens. -/
theorem boundsKeys_andN {satX dsatX satY dsatY : Set Spend} (left : BoundsKeys satX dsatX x.ops)
    (right : BoundsKeys satY dsatY y.ops) :
    BoundsKeys (script2Satisfactions satX dsatX satY dsatY .andN)
      (script2Dissatisfactions dsatX dsatY .andN) (script2ExtInfo x y .andN).ops := by
  have allowed := (right.1.add left.1).union (T := ∅) (b := y.ops.dsat)
    (fun _ mem => absurd mem (Set.notMem_empty _))
  rw [Set.union_empty, ← Set.image_add] at allowed
  exact ⟨allowed, left.2⟩

/-! ## The rules of `andor`, `l` and `u` -/

/-- Every execution of `andor` that dissatisfies the first script and satisfies the third one
executes no more keys than some satisfaction of the first and second script, or than some
dissatisfaction of the second script together with a satisfaction of the third one. These are the
executions that the rule of the analysis takes into account. -/
def AndorKeysCovered (first second third : PolicyNode) : Prop :=
  ∀ off ∈ dissatisfactions first, ∀ on ∈ satisfactions third,
    (∃ x ∈ satisfactions first, ∃ y ∈ satisfactions second,
        off.keys + on.keys ≤ y.keys + x.keys) ∨
      ∃ y ∈ dissatisfactions second, ∃ z ∈ satisfactions third,
        off.keys + on.keys ≤ y.keys + z.keys

variable {first second third : PolicyNode}

theorem boundsKeys_andor {z : PolicyNodeExtInfo}
    (boundsX : BoundsKeys (satisfactions first) (dissatisfactions first) x.ops)
    (boundsY : BoundsKeys (satisfactions second) (dissatisfactions second) y.ops)
    (boundsZ : BoundsKeys (satisfactions third) (dissatisfactions third) z.ops)
    (covered : AndorKeysCovered first second third) :
    BoundsKeys (satisfactions (.andor first second third))
      (dissatisfactions (.andor first second third)) (andorExtInfo x y z).ops := by
  have counted := (boundsY.1.add boundsX.1).union (boundsY.2.add boundsZ.1)
  constructor
  · rw [satisfactions, Set.image_union]
    refine BoundsCosts.both (counted.mono ?_ le_rfl) ?_
    · rw [Set.image_add]
      exact Set.subset_union_left
    · rintro _ ⟨_, ⟨on, onMem, off, offMem, rfl⟩, rfl⟩
      rw [map_add, add_comm]
      rcases covered off offMem on onMem with
        ⟨_, memX, spendY, memY, le⟩ | ⟨spendY, memY, _, memZ, le⟩
      · exact counted.of_le (.inl (Set.add_mem_add (Set.mem_image_of_mem _ memY)
          (Set.mem_image_of_mem _ memX))) le
      · exact counted.of_le (.inr (Set.add_mem_add (Set.mem_image_of_mem _ memY)
          (Set.mem_image_of_mem _ memZ))) le
  · rw [dissatisfactions, Set.image_add, add_comm]
    exact boundsX.2.add boundsZ.2

/-- The numbers of keys that the analysis computes for an expression are exact. -/
def ExactKeys (sat dsat : Set Spend) (ops : MiniscriptOps) : Prop :=
  ExactCost maxCost (Spend.keys '' sat) ops.sat ∧ ExactCost maxCost (Spend.keys '' dsat) ops.dsat

theorem ExactKeys.bounds {ops : MiniscriptOps}
    (exact : ExactKeys sat dsat ops) : BoundsKeys sat dsat ops :=
  ⟨exact.1.bounds, exact.2.bounds⟩

/-- Over arguments with exact numbers, the rule of `andor` is a bound exactly if the executions
that it does not look at are covered. -/
theorem boundsKeys_andor_iff {z : PolicyNodeExtInfo}
    (exactX : ExactKeys (satisfactions first) (dissatisfactions first) x.ops)
    (exactY : ExactKeys (satisfactions second) (dissatisfactions second) y.ops)
    (exactZ : ExactKeys (satisfactions third) (dissatisfactions third) z.ops)
    (small : ∀ spend ∈ satisfactions (.andor first second third), spend.keys < maxCost) :
    BoundsKeys (satisfactions (.andor first second third))
        (dissatisfactions (.andor first second third)) (andorExtInfo x y z).ops ↔
      AndorKeysCovered first second third := by
  refine ⟨fun ⟨bounds, _⟩ off offMem on onMem => ?_,
    boundsKeys_andor exactX.bounds exactY.bounds exactZ.bounds⟩
  have mem : on + off ∈ satisfactions (.andor first second third) :=
    .inr (Set.add_mem_add onMem offMem)
  have bound := bounds _ (Set.mem_image_of_mem _ mem)
  have below := small _ mem
  have value : (andorExtInfo x y z).ops.sat = largerCost
      (cappedSum maxCost y.ops.sat x.ops.sat) (cappedSum maxCost y.ops.dsat z.ops.sat) := rfl
  rw [map_add] at bound below
  rw [value] at bound
  rcases (exactY.1.add exactX.1).union (exactY.2.add exactZ.1) with
    ⟨-, none⟩ | ⟨largest, ⟨largestMem, -⟩, isLargest⟩
  · rw [none] at bound
    omega
  · rw [isLargest] at bound
    have le : off.keys + on.keys ≤ largest := by omega
    rcases largestMem with ⟨_, ⟨spendY, memY, rfl⟩, _, ⟨spendX, memX, rfl⟩, rfl⟩ |
      ⟨_, ⟨spendY, memY, rfl⟩, _, ⟨spendZ, memZ, rfl⟩, rfl⟩
    · exact .inl ⟨spendX, memX, spendY, memY, le⟩
    · exact .inr ⟨spendY, memY, spendZ, memZ, le⟩

/-- Over an argument with exact numbers, the rule of `l` and `u` is a bound exactly if the argument
can be dissatisfied. -/
theorem boundsKeys_wrapper_iff
    (exact : ExactKeys sat dsat x.ops) {token : WrapperToken} (isBranch : token = .l ∨ token = .u) :
    BoundsKeys (wrapperSatisfactions sat token) (wrapperDissatisfactions dsat token)
        (wrapperExtInfo x token).ops ↔
      dsat.Nonempty := by
  refine ⟨fun ⟨_, bounds⟩ => ?_, boundsKeys_branch exact.bounds isBranch⟩
  by_contra empty
  have none : x.ops.dsat = -1 := by
    rcases exact.2 with ⟨-, none⟩ | ⟨_, ⟨⟨spend, mem, -⟩, -⟩, -⟩
    · exact none
    · exact absurd ⟨spend, mem⟩ empty
  have skipped : ∃ spend ∈ wrapperDissatisfactions dsat token, spend.keys = 0 := by
    rcases isBranch with rfl | rfl
    · exact ⟨_, .inl rfl, rfl⟩
    · exact ⟨_, .inr rfl, rfl⟩
  obtain ⟨spend, mem, noKeys⟩ := skipped
  have bound := bounds _ (Set.mem_image_of_mem _ mem)
  have value : (wrapperExtInfo x token).ops.dsat = x.ops.dsat := by
    rcases isBranch with rfl | rfl <;> rfl
  rw [noKeys, value, none] at bound
  omega

/-! ## Policies -/

/-- The two places where the rules for the executed keys may be too small: every `andor` in an
expression is covered, and the arguments of `l` and `u` can be dissatisfied. -/
structure KeysCovered (script : PolicyNode) : Prop where
  andor : ∀ first second third, .andor first second third ∈ script.nodes →
    AndorKeysCovered first second third
  wrapper : ∀ token inner, .wrapper token inner ∈ script.nodes → token = .l ∨ token = .u →
    (dissatisfactions inner).Nonempty

theorem KeysCovered.child {node child : PolicyNode} (covered : KeysCovered node)
    (mem : child ∈ node.children) : KeysCovered child where
  andor first second third inner :=
    covered.andor first second third (PolicyNode.nodes_child_subset mem inner)
  wrapper token inner innerMem :=
    covered.wrapper token inner (PolicyNode.nodes_child_subset mem innerMem)

section Analysed

variable {scratch : Nat → Int} {infos : List PolicyNodeExtInfo}

theorem boundsKeys_thresh {scriptlist : List PolicyNode}
    (each : List.Forall₂ (fun node info => BoundsKeys (satisfactions node)
      (dissatisfactions node) info.ops) scriptlist infos)
    (analysed : threshExtInfo scratch k infos = some info) :
    BoundsKeys (satisfactions (.thresh k scriptlist)) (dissatisfactions (.thresh k scriptlist))
      info.ops := by
  have table := related_threshSpends (boundsCosts_relation maxCost) Spend.keys
    (fun child => (child.ops.sat, child.ops.dsat)) each
  obtain ⟨sat, dsat⟩ := Prod.mk.inj (costs_of_threshExtInfo analysed).1
  rw [BoundsKeys, satisfactions, dissatisfactions, sat, dsat, getD_threshSats (Nat.zero_le _)]
  refine ⟨?_, table 0⟩
  by_cases inside : k ≤ infos.length
  · rw [getD_threshSats (by rwa [length_map])]
    exact table k
  · -- behind the table there is nothing to bound
    have none := table k
    rw [getD_eq_default _ _ (by rw [length_threshSats, length_map]; omega)] at none
    rw [none.eq_empty]
    exact fun _ mem => absurd mem (Set.notMem_empty _)

theorem timelockExtInfo_ops (token : TimelockToken) (n : UInt32) :
    (timelockExtInfo token n).ops = ⟨1, 0, -1⟩ := by
  cases token <;> simp only [timelockExtInfo] <;> split <;> rfl

/-- The fragments whose rules for the executed keys have a form of their own. -/
def HasOwnRule : PolicyNode → Prop
  | .multisig _ _ _ | .andor _ _ _ | .thresh _ _ => True
  | .wrapper token _ => token = .l ∨ token = .u
  | .withScript2 token _ _ => token = .andN
  | _ => False

/-- A relation that sums and maxima preserve holds for every expression if the fragments with
rules of their own preserve it. -/
theorem relatesKeys_of_analysed {relation : Set Nat → Int → Prop}
    (respects : CostRelation maxCost relation) {admits : PolicyNode → Prop}
    (inherits : ∀ node, admits node → ∀ child ∈ node.children, admits child)
    (ownRules : ∀ node info, admits node → HasOwnRule node → Analysed scratch node info →
      (∀ child ∈ node.children, ∀ x, Analysed scratch child x →
        RelatesKeys relation (satisfactions child) (dissatisfactions child) x.ops) →
      RelatesKeys relation (satisfactions node) (dissatisfactions node) info.ops)
    {script : PolicyNode} (admitted : admits script) (analysed : Analysed scratch script info) :
    RelatesKeys relation (satisfactions script) (dissatisfactions script) info.ops := by
  refine PolicyNode.induction (motive := fun script => admits script → ∀ info,
    Analysed scratch script info →
      RelatesKeys relation (satisfactions script) (dissatisfactions script) info.ops)
    (fun node ih admitted info analysed => ?_) script admitted info analysed
  have children : ∀ child ∈ node.children, ∀ x, Analysed scratch child x →
      RelatesKeys relation (satisfactions child) (dissatisfactions child) x.ops :=
    fun child mem x childAnalysed => ih child mem (inherits node admitted child mem) x childAnalysed
  by_cases own : HasOwnRule node
  · exact ownRules node info admitted own analysed children
  cases node with
  | constant token =>
    cases analysed
    cases token with
    | zero => exact ⟨related_none respects, related_push respects []⟩
    | one => exact ⟨related_push respects [], related_none respects⟩
  | withKey token key =>
    cases token <;> cases analysed <;> exact ⟨related_push respects _, related_push respects _⟩
  | withUint32 token n =>
    cases analysed
    rw [timelockExtInfo_ops]
    exact ⟨related_push respects [], related_none respects⟩
  | withHash256 token h | withHash160 token h =>
    cases analysed
    exact ⟨related_push respects _, related_none respects⟩
  | wrapper token script =>
    obtain ⟨x, childAnalysed, rfl⟩ := analysed_wrapper analysed
    exact relatesKeys_wrapper respects (children script (mem_singleton_self _) x childAnalysed) own
  | withScript2 token first second =>
    obtain ⟨x, y, analysedX, analysedY, rfl⟩ := analysed_withScript2 analysed
    exact relatesKeys_script2 respects (children first mem_cons_self x analysedX)
      (children second (mem_cons_of_mem _ (mem_singleton_self _)) y analysedY) own
  | multisig | andor | thresh => exact absurd trivial own
  | _ => cases analysed

theorem boundsKeys_of_analysed {script : PolicyNode} (covered : KeysCovered script)
    (analysed : Analysed scratch script info) :
    BoundsKeys (satisfactions script) (dissatisfactions script) info.ops := by
  refine relatesKeys_of_analysed (boundsCosts_relation maxCost)
    (fun _ covered _ => covered.child) (fun node info covered own analysed children => ?_) covered
    analysed
  cases node with
  | multisig token k keyPlaceholders =>
    cases token <;> cases analysed
    refine ⟨?_, boundsCosts_keys _⟩
    rintro _ ⟨_, ⟨_, -, -, rfl⟩, rfl⟩
    exact boundsCosts_singleton keyPlaceholders.length _ rfl
  | wrapper token script =>
    obtain ⟨x, childAnalysed, rfl⟩ := analysed_wrapper analysed
    exact boundsKeys_branch (children script (mem_singleton_self _) x childAnalysed) own
      (covered.wrapper token script (PolicyNode.mem_nodes_self _) own)
  | withScript2 token first second =>
    obtain ⟨x, y, analysedX, analysedY, rfl⟩ := analysed_withScript2 analysed
    obtain rfl : token = .andN := own
    exact boundsKeys_andN (children first mem_cons_self x analysedX)
      (children second (mem_cons_of_mem _ (mem_singleton_self _)) y analysedY)
  | andor first second third =>
    obtain ⟨x, y, z, analysedX, analysedY, analysedZ, rfl⟩ :=
      analysed_andor analysed
    have memSecond : second ∈ (PolicyNode.andor first second third).children :=
      mem_cons_of_mem _ mem_cons_self
    have memThird : third ∈ (PolicyNode.andor first second third).children :=
      mem_cons_of_mem _ (mem_cons_of_mem _ mem_cons_self)
    exact boundsKeys_andor (children first mem_cons_self x analysedX)
      (children second memSecond y analysedY) (children third memThird z analysedZ)
      (covered.andor first second third (PolicyNode.mem_nodes_self _))
  | thresh k scriptlist =>
    obtain ⟨_, childrenAnalysed, threshAnalysed⟩ := analysed_thresh analysed
    exact boundsKeys_thresh (forall₂_of_mem childrenAnalysed children) threshAnalysed
  | _ => cases own

/-! ## Exact numbers -/

/-- The numbers of keys are 16-bit words. -/
def OpsWithin (ops : MiniscriptOps) : Prop :=
  ops.sat ≤ maxCost ∧ ops.dsat ≤ maxCost

/-- A property of numbers that sums and maxima preserve holds for the numbers of keys of every
expression, if it holds for the words that a threshold reads behind its table. -/
theorem ops_of_analysed {within : Int → Prop} (respects : CostRelation maxCost fun _ => within)
    (counts : ∀ n ≤ maxCost, within n) {script : PolicyNode} {flags : Option MiniscriptFlags}
    (wellTyped : WellTyped script flags)
    (words : ∀ k scriptlist, .thresh k scriptlist ∈ script.nodes → scriptlist.length < k →
      within (scratch k))
    (analysed : Analysed scratch script info) : within info.ops.sat ∧ within info.ops.dsat := by
  -- the sets of costs do not matter for this relation
  have sum {a b : Int} (left : within a) (right : within b) : within (sumcheck a b) :=
    respects.add (S := ∅) (T := ∅) left right
  have larger {a b : Int} (left : within a) (right : within b) : within (maxcheck a b) :=
    respects.union (S := ∅) (T := ∅) left right
  refine @relatesKeys_of_analysed _ _ _ respects
    (fun script => (∃ flags, WellTyped script flags) ∧ ∀ k scriptlist,
      .thresh k scriptlist ∈ script.nodes → scriptlist.length < k → within (scratch k))
    (fun node ⟨⟨_, typed⟩, words⟩ child mem => ⟨typed.child mem, fun k scriptlist inner =>
      words k scriptlist (PolicyNode.nodes_child_subset mem inner)⟩)
    (fun node info ⟨⟨_, typed⟩, words⟩ own analysed children => ?_) _ ⟨⟨_, wellTyped⟩, words⟩
    analysed
  cases node with
  | multisig token k keyPlaceholders =>
    cases typed with
    | multisig _ positive enough few =>
      have small := counts keyPlaceholders.length (few.trans (by decide))
      cases token <;> cases analysed
      exact ⟨small, small⟩
  | wrapper token script =>
    obtain ⟨x, childAnalysed, rfl⟩ := analysed_wrapper analysed
    rcases own with rfl | rfl <;>
      exact children script (mem_singleton_self _) x childAnalysed
  | withScript2 token first second =>
    obtain ⟨x, y, analysedX, analysedY, rfl⟩ := analysed_withScript2 analysed
    obtain rfl : token = .andN := own
    obtain ⟨satX, dsatX⟩ := children first mem_cons_self x analysedX
    obtain ⟨satY, dsatY⟩ :=
      children second (mem_cons_of_mem _ (mem_singleton_self _)) y analysedY
    exact ⟨larger (sum satY satX) dsatY, dsatX⟩
  | andor first second third =>
    obtain ⟨x, y, z, analysedX, analysedY, analysedZ, rfl⟩ := analysed_andor analysed
    obtain ⟨satX, dsatX⟩ := children first mem_cons_self x analysedX
    obtain ⟨satY, dsatY⟩ :=
      children second (mem_cons_of_mem _ mem_cons_self) y analysedY
    obtain ⟨satZ, dsatZ⟩ := children third
      (mem_cons_of_mem _ (mem_cons_of_mem _ mem_cons_self)) z analysedZ
    exact ⟨larger (sum satY satX) (sum dsatY satZ), sum dsatX dsatZ⟩
  | thresh k scriptlist =>
    obtain ⟨infos, childrenAnalysed, threshAnalysed⟩ := analysed_thresh analysed
    have table := related_threshSpends respects Spend.keys
      (fun child => (child.ops.sat, child.ops.dsat)) (forall₂_of_mem childrenAnalysed children)
    obtain ⟨sat, dsat⟩ := Prod.mk.inj (costs_of_threshExtInfo threshAnalysed).1
    rw [RelatesKeys, sat, dsat, getD_threshSats (Nat.zero_le _)]
    refine ⟨?_, table 0⟩
    by_cases inside : k ≤ infos.length
    · rw [getD_threshSats (by rwa [length_map])]
      exact table k
    · rw [getD_eq_default _ _ (by rw [length_threshSats, length_map]; omega)]
      exact words k scriptlist (PolicyNode.mem_nodes_self _)
        (childrenAnalysed.length_eq ▸ Nat.lt_of_not_le inside)
  | _ => cases own

theorem opsWithin_of_analysed (words : ∀ i, scratch i ≤ maxCost) {script : PolicyNode}
    {flags : Option MiniscriptFlags} (wellTyped : WellTyped script flags)
    (analysed : Analysed scratch script info) :
    OpsWithin info.ops :=
  ops_of_analysed (atMost_relation maxCost) (fun _ => Int.ofNat_le.mpr) wellTyped
    (fun k _ _ _ => words k) analysed

end Analysed

end LedgerSyscoin.Common
