import Mathlib.Data.List.GetD
import LedgerSyscoin.Common.Wallet.ExtInfo
import LedgerSyscoin.Common.Wallet.Spends
import LedgerSyscoin.Common.Wallet.WellTyped

/-!
# Stack elements of satisfactions

The table of a threshold against the choices from its arguments, and the largest
number of stack elements against the canonical satisfactions: it is exact, for
thresholds that do not ask for more arguments than they have.
-/

namespace LedgerSyscoin.Common

open Foundation List
open scoped Pointwise

variable {sats : List Int} {costs : List (Int × Int)} {info x : PolicyNodeExtInfo} {k : Nat}

/-- The largest number that the analysis computes with. -/
def maxCost : Nat := 32767

theorem sumcheck_eq (a b : Int) : sumcheck a b = cappedSum maxCost a b := rfl

theorem length_nextSats (sat dsat : Int) (nonempty : sats ≠ []) :
    (nextSats sat dsat sats).length = sats.length + 1 := by
  have := length_pos_iff.mpr nonempty
  simp only [nextSats, length_append, length_zipWith, length_tail, length_singleton]
  omega

theorem cappedSum_none_left (cap b : Int) : cappedSum cap (-1) b = -1 :=
  if_pos (.inl (by decide))

/-- The entries of the next row behind the first one. -/
theorem getD_laterSats (sat dsat : Int) (head : Int) (tail : List Int) (k : Nat) :
    (List.zipWith (fun entry previous => maxcheck (sumcheck entry dsat) (sumcheck previous sat))
        tail (head :: tail) ++ [sumcheck ((head :: tail).getLastD 0) sat]).getD k (-1) =
      largerCost (cappedSum maxCost (tail.getD k (-1)) dsat)
        (cappedSum maxCost ((head :: tail).getD k (-1)) sat) := by
  induction tail generalizing head k with
  | nil =>
    cases k with
    | zero => simp [cappedSum_none_left, largerCost, sumcheck_eq]
    | succ k => simp [cappedSum_none_left, largerCost]
  | cons next tail ih =>
    cases k with
    | zero => rfl
    | succ k => exact ih next k

theorem getD_nextSats {sat dsat : Int} (nonempty : sats ≠ []) (k : Nat) :
    (nextSats sat dsat sats).getD k (-1) =
      nextEntry maxCost (fun j => sats.getD j (-1)) sat dsat k := by
  obtain ⟨head, tail, rfl⟩ := exists_cons_of_ne_nil nonempty
  cases k with
  | zero => rfl
  | succ k => exact getD_laterSats sat dsat head tail k

section Table

variable {relation : Set Nat → Int → Prop} {options : List (Set Nat × Set Nat)}

/-- The table of a threshold, started from a row for some options, is related to the choices
from these options and the further ones. -/
theorem related_foldl_nextSats (respects : CostRelation maxCost relation)
    (each : List.Forall₂ (fun option cost => relation option.1 cost.1 ∧ relation option.2 cost.2)
      options costs)
    (seen : List (Set Nat × Set Nat)) (nonempty : sats ≠ [])
    (related : ∀ k, relation (chooseCosts seen k) (sats.getD k (-1))) (k : Nat) :
    relation (chooseCosts (seen ++ options) k)
      ((costs.foldl (fun sats (sat, dsat) => nextSats sat dsat sats) sats).getD k (-1)) := by
  induction each generalizing seen sats with
  | nil =>
    rw [append_nil]
    exact related k
  | @cons option cost options costs head _ ih =>
    have nextNonempty : nextSats cost.1 cost.2 sats ≠ [] := by
      rw [← length_pos_iff, length_nextSats _ _ nonempty]
      exact Nat.succ_pos _
    have next : ∀ k, relation (chooseCosts (seen ++ [option]) k)
        ((nextSats cost.1 cost.2 sats).getD k (-1)) := by
      intro k
      rw [getD_nextSats nonempty]
      exact respects.nextEntry related head.1 head.2 k
    have rest := ih (seen ++ [option]) nextNonempty next
    rwa [append_assoc] at rest

theorem related_threshSats (respects : CostRelation maxCost relation)
    (each : List.Forall₂ (fun option cost => relation option.1 cost.1 ∧ relation option.2 cost.2)
      options costs) (k : Nat) :
    relation (chooseCosts options k) ((threshSats costs).getD k (-1)) := by
  refine related_foldl_nextSats respects each [] (cons_ne_nil 0 []) (fun k => ?_) k
  cases k with
  | zero => exact respects.zero
  | succ k => exact respects.empty

end Table

theorem length_threshSats (costs : List (Int × Int)) :
    (threshSats costs).length = costs.length + 1 := by
  have general : ∀ (costs : List (Int × Int)) (sats : List Int), sats ≠ [] →
      (costs.foldl (fun sats (sat, dsat) => nextSats sat dsat sats) sats).length =
        costs.length + sats.length := by
    intro costs
    induction costs with
    | nil => exact fun sats _ => (Nat.zero_add _).symm
    | cons cost rest ih =>
      intro sats nonempty
      have length := length_nextSats cost.1 cost.2 nonempty
      rw [foldl_cons, ih _ (ne_nil_of_length_eq_add_one length), length, length_cons]
      omega
  exact general costs [0] (cons_ne_nil 0 [])

/-! ## Stack elements -/

/-- The stack sizes of the analysis are exact for sets of satisfactions and dissatisfactions. -/
def ExactStacksize (sat dsat : Set Spend) (ss : MiniscriptStacksize) : Prop :=
  ExactCost maxCost (Spend.size '' sat) ss.sat ∧ ExactCost maxCost (Spend.size '' dsat) ss.dsat

theorem exactCost_size (spend : Spend) (small : spend.size ≤ maxCost) :
    ExactCost maxCost (Spend.size '' {spend}) spend.size := by
  rw [Set.image_singleton]
  exact exactCost_singleton small

theorem exactStacksize_withKey (token : KeyToken) (key : KeyPlaceholder)
    (analysed : keyExtInfo token = some info) :
    ExactStacksize {keySatisfaction key token} {keyDissatisfaction key token} info.ss := by
  cases token <;> cases analysed <;>
    exact ⟨exactCost_size _ (Nat.le_of_ble_eq_true rfl),
      exactCost_size _ (Nat.le_of_ble_eq_true rfl)⟩

theorem exactStacksize_multisig {token : MultisigToken} {keyPlaceholders : List KeyPlaceholder}
    (enough : k ≤ keyPlaceholders.length) (few : keyPlaceholders.length ≤ maxPubkeysPerMultisig)
    (analysed : multisigExtInfo k keyPlaceholders.length token = some info) :
    ExactStacksize (multisigSatisfactions k keyPlaceholders token)
      (multisigDissatisfactions k keyPlaceholders token) info.ss := by
  cases token <;> cases analysed
  have small : k + 1 ≤ maxCost := by
    simp only [maxPubkeysPerMultisig, maxCost] at few ⊢
    omega
  have sizes : Spend.size '' multisigSatisfactions k keyPlaceholders .multi = {k + 1} := by
    ext size
    constructor
    · rintro ⟨_, ⟨_, _, length, rfl⟩, rfl⟩
      simp [Spend.size_apply, length]
    · rintro rfl
      exact ⟨_, ⟨keyPlaceholders.take k, take_sublist _ _, length_take_of_le enough, rfl⟩,
        by simp [Spend.size_apply, enough]⟩
  have size : Spend.size ⟨replicate (k + 1) .empty, keyPlaceholders.length⟩ = k + 1 :=
    length_replicate
  constructor
  · rw [sizes]
    exact exactCost_singleton small
  · rw [multisigDissatisfactions, Set.image_singleton, size]
    exact exactCost_singleton small

theorem exactStacksize_wrapper {sat dsat : Set Spend}
    (child : ExactStacksize sat dsat x.ss) (token : WrapperToken) :
    ExactStacksize (wrapperSatisfactions sat token) (wrapperDissatisfactions dsat token)
      (wrapperExtInfo x token).ss := by
  have one := exactCost_size (.push [.one]) (by decide)
  have empty := exactCost_size (.push [.empty]) (by decide)
  obtain ⟨satExact, dsatExact⟩ := child
  cases token <;>
    simp only [ExactStacksize, wrapperSatisfactions, wrapperDissatisfactions, Set.image_union,
      Set.image_add]
  case d =>
      refine ⟨?_, empty⟩
      rw [add_comm]
      exact one.add satExact
  case j => exact ⟨satExact, empty⟩
  case l => exact ⟨satExact.add empty, one.union (dsatExact.add empty)⟩
  case u =>
      refine ⟨satExact.add one, ?_⟩
      rw [Set.union_comm]
      exact empty.union (dsatExact.add one)
  case t => exact ⟨satExact, by rw [Set.image_empty]; exact exactCost_empty⟩
  case v => exact ⟨satExact, by rw [Set.image_empty]; exact exactCost_empty⟩
  all_goals exact ⟨satExact, dsatExact⟩

theorem exactStacksize_script2 {satX dsatX satY dsatY : Set Spend} {y : PolicyNodeExtInfo}
    (left : ExactStacksize satX dsatX x.ss) (right : ExactStacksize satY dsatY y.ss)
    (token : Script2Token) : ExactStacksize (script2Satisfactions satX dsatX satY dsatY token)
      (script2Dissatisfactions dsatX dsatY token) (script2ExtInfo x y token).ss := by
  have one := exactCost_size (.push [.one]) (by decide)
  have empty := exactCost_size (.push [.empty]) (by decide)
  obtain ⟨satExactX, dsatExactX⟩ := left
  obtain ⟨satExactY, dsatExactY⟩ := right
  have both : ExactCost maxCost (Spend.size '' satY + Spend.size '' satX)
      (sumcheck x.ss.sat y.ss.sat) := add_comm _ (Spend.size '' satX) ▸ satExactX.add satExactY
  have neither : ExactCost maxCost (Spend.size '' dsatY + Spend.size '' dsatX)
      (sumcheck x.ss.dsat y.ss.dsat) :=
    add_comm _ (Spend.size '' dsatX) ▸ dsatExactX.add dsatExactY
  have onlyX : ExactCost maxCost (Spend.size '' dsatY + Spend.size '' satX)
      (sumcheck x.ss.sat y.ss.dsat) := add_comm _ (Spend.size '' satX) ▸ satExactX.add dsatExactY
  have onlyY : ExactCost maxCost (Spend.size '' satY + Spend.size '' dsatX)
      (sumcheck x.ss.dsat y.ss.sat) := add_comm _ (Spend.size '' dsatX) ▸ dsatExactX.add satExactY
  have none : ExactCost maxCost (Spend.size '' ∅) (-1) := by
    rw [Set.image_empty]
    exact exactCost_empty
  cases token <;>
    simp only [ExactStacksize, script2Satisfactions, script2Dissatisfactions, Set.image_union,
      Set.image_add]
  case andV => exact ⟨both, none⟩
  case andB => exact ⟨both, neither⟩
  case andN => exact ⟨both, dsatExactX⟩
  case orB =>
      rw [Set.union_comm]
      exact ⟨onlyY.union onlyX, neither⟩
  case orC => exact ⟨satExactX.union onlyY, none⟩
  case orD => exact ⟨satExactX.union onlyY, neither⟩
  case orI =>
      exact ⟨(satExactX.add one).union (satExactY.add empty),
        (dsatExactX.add one).union (dsatExactY.add empty)⟩

theorem exactStacksize_andor {satX dsatX satY satZ dsatZ : Set Spend} {y z : PolicyNodeExtInfo}
    (first : ExactStacksize satX dsatX x.ss)
    (second : ExactCost maxCost (Spend.size '' satY) y.ss.sat)
    (third : ExactStacksize satZ dsatZ z.ss) :
    ExactStacksize ((satY + satX) ∪ (satZ + dsatX)) (dsatZ + dsatX) (andorExtInfo x y z).ss := by
  obtain ⟨satExactX, dsatExactX⟩ := first
  obtain ⟨satExactZ, dsatExactZ⟩ := third
  rw [ExactStacksize, Set.image_union, Set.image_add, Set.image_add, Set.image_add,
    add_comm _ (Spend.size '' satX), add_comm _ (Spend.size '' dsatX),
    add_comm _ (Spend.size '' dsatX)]
  exact ⟨(satExactX.add second).union (dsatExactX.add satExactZ), dsatExactX.add dsatExactZ⟩

variable {infos : List PolicyNodeExtInfo}

/-- The table of a threshold over analysed arguments. -/
theorem related_threshSpends {relation : Set Nat → Int → Prop}
    (respects : CostRelation maxCost relation) (cost : Spend →+ Nat)
    (costs : PolicyNodeExtInfo → Int × Int) {scriptlist : List PolicyNode}
    (each : List.Forall₂ (fun node info => relation (cost '' satisfactions node) (costs info).1 ∧
      relation (cost '' dissatisfactions node) (costs info).2) scriptlist infos) (k : Nat) :
    relation (cost '' threshSpends scriptlist k) ((threshSats (infos.map costs)).getD k (-1)) := by
  rw [image_threshSpends]
  refine related_threshSats respects ?_ k
  rw [forall₂_map_left_iff, forall₂_map_right_iff]
  exact each

/-- Inside the table it does not matter what stands behind it. -/
theorem getD_threshSats (inside : k ≤ costs.length)
    (other : Int) : (threshSats costs).getD k other = (threshSats costs).getD k (-1) := by
  have lt : k < (threshSats costs).length := by
    rw [length_threshSats]
    exact Nat.lt_succ_of_le inside
  simp [getD_eq_getElem?_getD, lt]

section Analysed

variable {scratch : Nat → Int}

/-- The number of stack elements is exact for a threshold that does not ask for more arguments
than it has. -/
theorem exactStacksize_thresh {scriptlist : List PolicyNode}
    (each : List.Forall₂ (fun node info => ExactStacksize (satisfactions node)
      (dissatisfactions node) info.ss) scriptlist infos)
    (enough : k ≤ scriptlist.length) (analysed : threshExtInfo scratch k infos = some info) :
    ExactStacksize (satisfactions (.thresh k scriptlist)) (dissatisfactions (.thresh k scriptlist))
      info.ss := by
  have table := related_threshSpends (exactCost_relation maxCost) Spend.size
    (fun child => (child.ss.sat, child.ss.dsat)) each
  obtain ⟨sat, dsat⟩ := Prod.mk.inj (costs_of_threshExtInfo analysed).2
  rw [each.length_eq] at enough
  rw [ExactStacksize, satisfactions, dissatisfactions, sat, dsat,
    getD_threshSats (by rwa [length_map]), getD_threshSats (Nat.zero_le _)]
  exact ⟨table k, table 0⟩

/-- Every threshold in an expression has at least as many arguments as it asks for. -/
def ThresholdsReachable (script : PolicyNode) : Prop :=
  ∀ k scriptlist, .thresh k scriptlist ∈ script.nodes → k ≤ scriptlist.length

theorem ThresholdsReachable.child {node child : PolicyNode} (reachable : ThresholdsReachable node)
    (mem : child ∈ node.children) : ThresholdsReachable child :=
  fun k scriptlist inner => reachable k scriptlist (PolicyNode.nodes_child_subset mem inner)

theorem timelockExtInfo_ss (token : TimelockToken) (n : UInt32) :
    (timelockExtInfo token n).ss = ⟨0, -1⟩ := by
  cases token <;> simp only [timelockExtInfo] <;> split <;> rfl

theorem exactStacksize_of_analysed {script : PolicyNode} {flags : Option MiniscriptFlags}
    (wellTyped : WellTyped script flags) (reachable : ThresholdsReachable script)
    (analysed : Analysed scratch script info) :
    ExactStacksize (satisfactions script) (dissatisfactions script) info.ss := by
  have zero := exactCost_size 0 (Nat.zero_le _)
  have none : ExactCost maxCost (Spend.size '' ∅) (-1) := by
    rw [Set.image_empty]
    exact exactCost_empty
  refine PolicyNode.induction (motive := fun script => ∀ flags, WellTyped script flags →
    ThresholdsReachable script → ∀ info,
      Analysed scratch script info →
        ExactStacksize (satisfactions script) (dissatisfactions script) info.ss)
    (fun node ih flags wellTyped reachable info analysed => ?_) script flags wellTyped reachable
    info analysed
  have exact_child : ∀ child ∈ node.children, ∀ x,
      Analysed scratch child x →
        ExactStacksize (satisfactions child) (dissatisfactions child) x.ss := by
    intro child mem x childAnalysed
    obtain ⟨childFlags, childTyped⟩ := wellTyped.child mem
    exact ih child mem childFlags childTyped (reachable.child mem) x childAnalysed
  cases node with
  | constant token =>
    cases analysed
    cases token with
    | zero => exact ⟨none, zero⟩
    | one => exact ⟨zero, none⟩
  | withKey token key => exact exactStacksize_withKey token key analysed
  | withUint32 token n =>
    cases analysed
    rw [timelockExtInfo_ss]
    exact ⟨zero, none⟩
  | withHash256 token h | withHash160 token h =>
    cases analysed
    exact ⟨exactCost_size _ (Nat.le_of_ble_eq_true rfl), none⟩
  | multisig token k keyPlaceholders =>
    cases wellTyped with
    | multisig _ positive enough few => exact exactStacksize_multisig enough few analysed
  | wrapper token script =>
    obtain ⟨x, childAnalysed, rfl⟩ := analysed_wrapper analysed
    exact exactStacksize_wrapper (exact_child script (mem_singleton_self _) x childAnalysed) token
  | withScript2 token first second =>
    obtain ⟨x, y, analysedX, analysedY, rfl⟩ := analysed_withScript2 analysed
    exact exactStacksize_script2 (exact_child first mem_cons_self x analysedX)
      (exact_child second (mem_cons_of_mem _ (mem_singleton_self _)) y analysedY) token
  | andor first second third =>
    obtain ⟨x, y, z, analysedX, analysedY, analysedZ, rfl⟩ :=
      analysed_andor analysed
    have memSecond : second ∈ (PolicyNode.andor first second third).children :=
      mem_cons_of_mem _ mem_cons_self
    have memThird : third ∈ (PolicyNode.andor first second third).children :=
      mem_cons_of_mem _ (mem_cons_of_mem _ mem_cons_self)
    exact exactStacksize_andor (exact_child first mem_cons_self x analysedX)
      (exact_child second memSecond y analysedY).1 (exact_child third memThird z analysedZ)
  | thresh k scriptlist =>
    obtain ⟨_, childrenAnalysed, threshAnalysed⟩ := analysed_thresh analysed
    exact exactStacksize_thresh (forall₂_of_mem childrenAnalysed exact_child)
      (reachable k scriptlist (PolicyNode.mem_nodes_self _)) threshAnalysed
  | _ => cases analysed

end Analysed

end LedgerSyscoin.Common
