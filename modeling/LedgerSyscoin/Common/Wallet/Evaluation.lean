import LedgerSyscoin.Common.Wallet.Costs
import LedgerSyscoin.Common.Wallet.Equality

/-!
# Evaluations of the analysis

How the analysis of a threshold runs: each of three loops evaluates all the
arguments again, and two of them build a table of costs, on the stack or, on
devices with little memory, in one buffer that all the activations share.
-/

namespace LedgerSyscoin.Common

open Foundation List

variable {scratch : Nat → Int} {k : Nat} {policy script : PolicyNode}

/-! ## Entries of the tables -/

/-- The analysis of a script reads only entries of the tables that it has computed: its results are
the same whatever the memory behind them holds. -/
def ReadsComputed (script : PolicyNode) : Prop :=
  ∀ scratch scratch', computeMiniscriptPolicyExtInfo scratch script =
    computeMiniscriptPolicyExtInfo scratch' script

/-- A script that the analysis does not refuse. -/
def Analysable (script : PolicyNode) : Prop :=
  ∃ scratch, (computeMiniscriptPolicyExtInfo scratch script).isSome

/-- A node of a policy, or of a script in its script tree. -/
def OccursIn (node policy : PolicyNode) : Prop :=
  node ∈ policy.nodes ∨ ∃ key tree, .tr key (some tree) ∈ policy.nodes ∧
    ∃ leaf ∈ tree.leaves, node ∈ leaf.nodes

theorem OccursIn.node {inner : PolicyNode} (occurs : OccursIn script policy)
    (mem : inner ∈ script.nodes) : OccursIn inner policy := by
  rcases occurs with isNode | ⟨key, tree, isTr, leaf, leafMem, isNode⟩
  · exact .inl (PolicyNode.nodes_subset isNode mem)
  · exact .inr ⟨key, tree, isTr, leaf, leafMem, PolicyNode.nodes_subset isNode mem⟩

/-- A threshold whose entry was computed has the same costs for every memory. -/
theorem threshExtInfo_congr {infos : List PolicyNodeExtInfo} (enough : k ≤ infos.length)
    (scratch scratch' : Nat → Int) :
    threshExtInfo scratch k infos = threshExtInfo scratch' k infos := by
  have costs : ∀ cost : PolicyNodeExtInfo → Int × Int,
      threshCosts scratch k (infos.map cost) = threshCosts scratch' k (infos.map cost) := by
    intro cost
    have inside : k ≤ (infos.map cost).length := by rwa [length_map]
    simp only [threshCosts, getD_threshSats inside, getD_threshSats (Nat.zero_le _)]
  simp only [threshExtInfo, costs]

/-- A threshold that asks for more arguments than it has is found to need as many keys as the
memory behind the table says. -/
theorem ops_sat_of_beyond {scriptlist : List PolicyNode} {info : PolicyNodeExtInfo}
    (beyond : scriptlist.length < k) (analysed : Analysed scratch (.thresh k scriptlist) info) :
    info.ops.sat = scratch k := by
  obtain ⟨infos, children, threshAnalysed⟩ := analysed_thresh analysed
  obtain ⟨sat, -⟩ := Prod.mk.inj (costs_of_threshExtInfo threshAnalysed).1
  rw [sat]
  refine getD_eq_default _ _ ?_
  rw [length_threshSats, length_map, ← children.length_eq]
  exact beyond

theorem le_of_readsComputed {scriptlist : List PolicyNode}
    (reads : ReadsComputed (.thresh k scriptlist))
    (analysable : Analysable (.thresh k scriptlist)) :
    k ≤ scriptlist.length := by
  obtain ⟨scratch, success⟩ := analysable
  obtain ⟨info, analysed⟩ := Option.isSome_iff_exists.mp success
  by_contra beyond
  have same := ops_sat_of_beyond (Nat.not_le.mp beyond) analysed
  have other : info.ops.sat = scratch k + 1 :=
    ops_sat_of_beyond (Nat.not_le.mp beyond)
      ((reads (fun j => scratch j + 1) scratch).trans analysed)
  omega

/-- The results for a list of scripts do not depend on the memory either. -/
theorem computeExtInfos_congr {scriptlist : List PolicyNode}
    (each : ∀ script ∈ scriptlist, ReadsComputed script) (scratch scratch' : Nat → Int) :
    computeExtInfos scratch scriptlist = computeExtInfos scratch' scriptlist := by
  induction scriptlist with
  | nil => rfl
  | cons script rest ih =>
    obtain ⟨first, others⟩ := forall_mem_cons.mp each
    rw [computeExtInfos, computeExtInfos, first scratch scratch', ih others]

theorem readsComputed_of_reachable (script : PolicyNode) :
    (∀ k scriptlist, .thresh k scriptlist ∈ script.nodes → Analysable (.thresh k scriptlist) →
      k ≤ scriptlist.length) → ReadsComputed script := by
  refine PolicyNode.induction (motive := fun script => (∀ k scriptlist,
    .thresh k scriptlist ∈ script.nodes → Analysable (.thresh k scriptlist) →
      k ≤ scriptlist.length) → ReadsComputed script) (fun node ih reachable => ?_) script
  have child : ∀ child ∈ node.children, ReadsComputed child := fun child mem =>
    ih child mem fun k scriptlist inner =>
      reachable k scriptlist (PolicyNode.nodes_child_subset mem inner)
  intro scratch scratch'
  cases node with
  | wrapper token script =>
    simp only [computeMiniscriptPolicyExtInfo, child script mem_cons_self scratch scratch']
  | withScript2 token first second =>
    simp only [PolicyNode.children, PolicyNode.scripts, forall_mem_cons] at child
    simp only [computeMiniscriptPolicyExtInfo, child.1 scratch scratch', child.2.1 scratch scratch']
  | andor first second third =>
    simp only [PolicyNode.children, PolicyNode.scripts, forall_mem_cons] at child
    simp only [computeMiniscriptPolicyExtInfo, child.1 scratch scratch',
      child.2.1 scratch scratch', child.2.2.1 scratch scratch']
  | thresh k scriptlist =>
    by_cases analysable : Analysable (.thresh k scriptlist)
    · have enough := reachable k scriptlist (PolicyNode.mem_nodes_self _) analysable
      have arguments : computeExtInfos scratch scriptlist = computeExtInfos scratch' scriptlist :=
        computeExtInfos_congr child scratch scratch'
      simp only [computeMiniscriptPolicyExtInfo, arguments]
      cases analysed : computeExtInfos scratch' scriptlist with
      | none => rfl
      | some infos =>
        rw [(computeExtInfos_eq_some_iff.mp analysed).length_eq] at enough
        exact threshExtInfo_congr enough scratch scratch'
    · -- the tables of a threshold that is refused are not read
      simp only [Analysable, not_exists, Option.not_isSome_iff_eq_none] at analysable
      rw [analysable, analysable]
  | _ => rfl

/-- The thresholds of an accepted template ask for at least one of at least one argument. The
tables of all of them are read only where they have been computed exactly if none that is analysed
asks for more arguments than the template lists. -/
theorem threshold_wellFormed_iff {settings : TemplateSettings} {template : Bytes}
    (accepted : parseDescriptorTemplate settings template = .ok policy) :
    (∀ k scriptlist, OccursIn (.thresh k scriptlist) policy → 1 ≤ k ∧ 1 ≤ scriptlist.length) ∧
      ((∀ script, OccursIn script policy → ReadsComputed script) ↔
        ∀ k scriptlist, OccursIn (.thresh k scriptlist) policy →
          Analysable (.thresh k scriptlist) → k ≤ scriptlist.length) := by
  obtain ⟨_, policyTyped⟩ := wellTyped_of_parseDescriptorTemplate accepted
  refine ⟨fun k scriptlist occurs => ?_, fun reads k scriptlist occurs =>
    le_of_readsComputed (reads _ occurs), fun reachable script occurs =>
      readsComputed_of_reachable script fun k scriptlist mem =>
        reachable k scriptlist (occurs.node mem)⟩
  have typed : ∃ flags, WellTyped (.thresh k scriptlist) flags := by
    rcases occurs with mem | ⟨key, tree, isTr, leaf, leafMem, mem⟩
    · exact policyTyped.nodes _ mem
    · obtain ⟨_, trTyped⟩ := policyTyped.nodes _ isTr
      obtain ⟨_, leafTyped⟩ := trTyped.leaf leafMem
      exact leafTyped.nodes _ mem
  obtain ⟨_, threshTyped⟩ := typed
  cases threshTyped with
  | thresh positive => exact ⟨positive, Nat.succ_pos _⟩

/-- `wsh(thresh(k,pk(@0/**)))` -/
def singleThreshold (k : Nat) : PolicyNode := .wsh (.thresh k [.withKey .pk ⟨0, 1, 0⟩])

theorem threshold_wellFormed_single :
    parseDescriptorTemplate ⟨.v2, deviceLayout, 768⟩
        ("wsh(thresh(1,pk(@0/**)))".toList.map ascii) = .ok (singleThreshold 1) ∧
      ReadsComputed (.thresh 1 [.withKey .pk ⟨0, 1, 0⟩]) := by
  have accepted : parseDescriptorTemplate ⟨.v2, deviceLayout, 768⟩
      ("wsh(thresh(1,pk(@0/**)))".toList.map ascii) = .ok (singleThreshold 1) := by decide +kernel
  refine ⟨accepted, (threshold_wellFormed_iff accepted).2.mpr ?_ _
    (.inl (by simp [singleThreshold, PolicyNode.nodes]))⟩
  intro k scriptlist occurs _
  simp [OccursIn, singleThreshold, PolicyNode.nodes, PolicyNode.nodesList] at occurs
  simp [occurs]

/-- The parser accepts a threshold of two with a single argument. The analysis takes the number of
executed keys from the third entry of a table with two entries. -/
theorem threshold_beyond_arguments :
    parseDescriptorTemplate ⟨.v2, deviceLayout, 768⟩
        ("wsh(thresh(2,pk(@0/**)))".toList.map ascii) = .ok (singleThreshold 2) ∧
      .thresh 2 [.withKey .pk ⟨0, 1, 0⟩] ∈ (singleThreshold 2).nodes ∧
      ∀ word : Int, (computeMiniscriptPolicyExtInfo (fun _ => word)
        (.thresh 2 [.withKey .pk ⟨0, 1, 0⟩])).map (·.ops.sat) = some word :=
  ⟨by decide +kernel, by simp [singleThreshold, PolicyNode.nodes], fun _ => rfl⟩

/-! ## Activations -/

section Activations

mutual

/-- The number of activations of the analysis in one evaluation of a script, where an activation
that does not succeed ends those it was called from. -/
def activationsIf (succeeds : PolicyNode → Bool) : PolicyNode → Nat
  | .wrapper _ script => 1 + activationsIf succeeds script
  | .withScript2 _ first second =>
    1 + activationsIf succeeds first +
      if succeeds first then activationsIf succeeds second else 0
  | .andor first second third =>
    1 + activationsIf succeeds first +
      if succeeds first then
        activationsIf succeeds second + if succeeds second then activationsIf succeeds third else 0
      else 0
  | .thresh k scriptlist =>
    -- the loop for the flags, and those of `compute_thresh_ops` and `compute_thresh_stacksize`
    1 + loopActivationsIf succeeds scriptlist +
      if succeeds (.thresh k scriptlist) then
        loopActivationsIf succeeds scriptlist + loopActivationsIf succeeds scriptlist
      else 0
  | _ => 1

/-- The activations of a loop over the arguments of a threshold. -/
def loopActivationsIf (succeeds : PolicyNode → Bool) : List PolicyNode → Nat
  | [] => 0
  | script :: rest =>
    activationsIf succeeds script + if succeeds script then loopActivationsIf succeeds rest else 0

end

mutual

/-- For each node of a script below `depth` thresholds, the number of thresholds above it. -/
def nestings (depth : Nat) : PolicyNode → List Nat
  | .wrapper _ script | .sh script | .wsh script => depth :: nestings depth script
  | .withScript2 _ first second => depth :: (nestings depth first ++ nestings depth second)
  | .andor first second third =>
    depth :: (nestings depth first ++ (nestings depth second ++ nestings depth third))
  | .thresh _ scriptlist => depth :: nestingsOfList (depth + 1) scriptlist
  | _ => [depth]

/-- The nestings of the arguments of a threshold. -/
def nestingsOfList (depth : Nat) : List PolicyNode → List Nat
  | [] => []
  | script :: rest => nestings depth script ++ nestingsOfList depth rest

end

/-- The number of nodes, where each one counts three times for every threshold above it. -/
def tripled (nestings : List Nat) : Nat := (nestings.map (3 ^ ·)).sum

@[simp]
theorem tripled_nil : tripled [] = 0 := rfl

@[simp]
theorem tripled_cons (depth : Nat) (rest : List Nat) :
    tripled (depth :: rest) = 3 ^ depth + tripled rest := by
  simp [tripled]

@[simp]
theorem tripled_append (left right : List Nat) :
    tripled (left ++ right) = tripled left + tripled right := by
  simp [tripled]

variable {succeeds : PolicyNode → Bool}

/-- Each activation below `depth` thresholds is one of `3 ^ depth`. Without failures none is
left out. -/
def Counts (succeeds : PolicyNode → Bool) (script : PolicyNode) : Prop :=
  ∀ depth, 3 ^ depth * activationsIf succeeds script ≤ tripled (nestings depth script) ∧
    (succeeds script = true →
      3 ^ depth * activationsIf succeeds script = tripled (nestings depth script))

theorem counts_loop {scriptlist : List PolicyNode}
    (each : ∀ script ∈ scriptlist, Counts succeeds script) (depth : Nat) :
    3 ^ depth * loopActivationsIf succeeds scriptlist ≤ tripled (nestingsOfList depth scriptlist) ∧
      ((∀ script ∈ scriptlist, succeeds script = true) →
        3 ^ depth * loopActivationsIf succeeds scriptlist =
          tripled (nestingsOfList depth scriptlist)) := by
  induction scriptlist with
  | nil => exact ⟨Nat.zero_le _, fun _ => rfl⟩
  | cons script rest ih =>
    obtain ⟨first, others⟩ := forall_mem_cons.mp each
    obtain ⟨firstLe, firstEq⟩ := first depth
    obtain ⟨restLe, restEq⟩ := ih others
    simp only [loopActivationsIf, nestingsOfList, tripled_append, Nat.mul_add, forall_mem_cons]
    refine ⟨?_, fun success => ?_⟩
    · split <;> omega
    · rw [if_pos success.1, firstEq success.1, restEq success.2]

theorem counts (inherits : ∀ node, succeeds node = true → ∀ child ∈ node.children,
    succeeds child = true) (wraps : ∀ script, succeeds (.sh script) = false ∧
      succeeds (.wsh script) = false) (script : PolicyNode) : Counts succeeds script := by
  refine PolicyNode.induction (motive := Counts succeeds) (fun node ih depth => ?_) script
  have children := inherits node
  cases node with
  | wrapper | withScript2 | andor =>
    simp only [PolicyNode.children, PolicyNode.scripts, forall_mem_cons, Counts] at ih children
    simp only [activationsIf, nestings, tripled_cons, tripled_append, Nat.mul_add, Nat.mul_one,
      mul_ite, Nat.mul_zero]
    grind
  | thresh k scriptlist =>
    -- the three loops of one activation are a level of nesting
    have level : 3 ^ (depth + 1) * loopActivationsIf succeeds scriptlist =
        3 * (3 ^ depth * loopActivationsIf succeeds scriptlist) := by ring
    obtain ⟨loopLe, loopEq⟩ := counts_loop ih (depth + 1)
    simp only [PolicyNode.children, level] at loopLe loopEq children
    simp only [activationsIf, nestings, tripled_cons, Nat.mul_add, Nat.mul_one, mul_ite]
    refine ⟨?_, fun success => ?_⟩
    · split <;> omega
    · have eq := loopEq (children success)
      rw [if_pos success]
      omega
  | sh script | wsh script =>
    have fails := wraps script
    simp [activationsIf, nestings, fails]
  | _ => simp [activationsIf, nestings]

end Activations

/-- The number of words of a table. -/
def threshTableSize : Nat := maxNInThresh + 1 + 1

/-- The words of the shared buffer. -/
abbrev Words := Nat → Int

/-- Entry `j` of `next_sats`, over a table of `size` entries. -/
def nextTableEntry (size : Nat) (sat dsat : Int) (words : Words) (j : Nat) : Int :=
  if j = 0 then sumcheck (words 0) dsat
  else if j < size then maxcheck (sumcheck (words j) dsat) (sumcheck (words (j - 1)) sat)
  else sumcheck (words (size - 1)) sat

/-- One round of the loop over a table. The entries of the next row are written behind the first
table and moved to its start. -/
def tableRound (size : Nat) (sat dsat : Int) (words : Words) (index : Nat) : Int :=
  if index ≤ size then nextTableEntry size sat dsat words index
  else if threshTableSize ≤ index ∧ index ≤ threshTableSize + size then
    nextTableEntry size sat dsat words (index - threshTableSize)
  else words index

/-- The information on a threshold with the costs from its tables. -/
def threshInfo (k : Nat) (children : List PolicyNodeExtInfo) (ops : MiniscriptOps)
    (ss : MiniscriptStacksize) : PolicyNodeExtInfo :=
  let size := (children.map (·.scriptSize.toNat)).sum + children.length +
    getPushScriptSize (UInt32.ofNat k)
  let countNotS : Int := children.length - children.countP (·.s)
  { children.foldl (threshTimelocks k) (.initial (UInt16.ofNat size) ops ss) with
    s := countNotS ≤ k - 1
    e := children.countP (·.s) = children.length
    m := children.countP (·.e) = children.length && countNotS ≤ k
    x := false }

mutual

/-- The analysis of a policy with all the tables in the same words. -/
def sharedExtInfo : PolicyNode → Words → Option (PolicyNodeExtInfo × Words)
  | .wrapper token script, words => do
    let (x, words) ← sharedExtInfo script words
    return (wrapperExtInfo x token, words)
  | .withScript2 token first second, words => do
    let (x, words) ← sharedExtInfo first words
    let (y, words) ← sharedExtInfo second words
    return (script2ExtInfo x y token, words)
  | .andor first second third, words => do
    let (x, words) ← sharedExtInfo first words
    let (y, words) ← sharedExtInfo second words
    let (z, words) ← sharedExtInfo third words
    return (andorExtInfo x y z, words)
  | .thresh k scriptlist, words => do
    let (children, words) ← sharedExtInfos (fun _ _ words => words) 1 scriptlist words
    guard (scriptlist.length ≤ maxNInThresh)
    let (counted, ops) ← sharedExtInfos (fun size t => tableRound size t.ops.sat t.ops.dsat) 1
      scriptlist (Function.update words 0 0)
    let count := counted.foldl (fun count child => count + (child.ops.count + 1)) 0
    let (_, ss) ← sharedExtInfos (fun size t => tableRound size t.ss.sat t.ss.dsat) 1 scriptlist
      (Function.update ops 0 0)
    return (threshInfo k children ⟨count, ops k, ops 0⟩ ⟨ss k, ss 0⟩, ss)
  -- the other nodes are not evaluated with tables
  | node, words => (computeMiniscriptPolicyExtInfo (fun _ => 0) node).map (·, words)

/-- A loop over the arguments of a threshold, each of which is evaluated before its round. -/
def sharedExtInfos (round : Nat → PolicyNodeExtInfo → Words → Words) :
    Nat → List PolicyNode → Words → Option (List PolicyNodeExtInfo × Words)
  | _, [], words => some ([], words)
  | size, script :: rest, words => do
    let (t, words) ← sharedExtInfo script words
    let (infos, words) ← sharedExtInfos round (size + 1) rest (round size t words)
    return (t :: infos, words)

end

/-- A script without thresholds. -/
def ThreshFree (script : PolicyNode) : Prop := ∀ inner ∈ script.nodes, inner.type ≠ .thresh

/-- Thresholds that have the arguments they ask for, without other thresholds in them. -/
def FlatThresholds (script : PolicyNode) : Prop :=
  ∀ k scriptlist, .thresh k scriptlist ∈ script.nodes →
    k ≤ scriptlist.length ∧ ∀ argument ∈ scriptlist, ThreshFree argument

section Shared

variable {round : Nat → PolicyNodeExtInfo → Words → Words} {words : Words} {sats : List Int}
  {scriptlist : List PolicyNode} {infos : List PolicyNodeExtInfo}

/-- A computation with a fixed result that changes the words by `after`. -/
def Overwrites {α : Type} (program : Words → Option (α × Words)) (result : Option α)
    (after : Words → Words) : Prop :=
  ∀ words, program words = result.map (·, after words)

theorem Overwrites.bind {α β : Type} {program : Words → Option (α × Words)} {result : Option α}
    {later : α → Words → Option (β × Words)} {results : α → Option β} {after after' : Words → Words}
    (first : Overwrites program result after)
    (next : ∀ x, Overwrites (later x) (results x) after') :
    Overwrites (fun words => program words >>= fun (x, words) => later x words) (result >>= results)
      (after' ∘ after) := by
  intro words
  dsimp only
  rw [first words]
  cases result with
  | none => rfl
  | some x => exact next x (after words)

theorem ThreshFree.flat (free : ThreshFree script) : FlatThresholds script :=
  fun _ _ mem => absurd rfl (free _ mem)

theorem ThreshFree.child {child : PolicyNode} (free : ThreshFree script)
    (mem : child ∈ script.children) : ThreshFree child :=
  fun inner innerMem => free inner (PolicyNode.nodes_child_subset mem innerMem)

end Shared

end LedgerSyscoin.Common
