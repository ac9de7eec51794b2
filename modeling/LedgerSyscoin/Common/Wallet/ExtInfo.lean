import Mathlib.Data.List.Forall2
import LedgerSyscoin.Common.Script
import LedgerSyscoin.Common.Wallet

/-!
# Extended information on miniscript

The static analysis that the wallet runs on a miniscript policy: the size of its script,
its opcodes, the keys and stack elements of its satisfactions, and the properties on
which the check of sane policies rests. Numbers of satisfactions stay between `-1`, for
"invalid", and 32767, and are integers here; the size and the opcode count wrap.
-/

namespace LedgerSyscoin.Common

open List

/-- The number of opcodes that are not pushes, and the number of keys in executed
`CHECKMULTISIG`s of a satisfaction and of a dissatisfaction. -/
structure MiniscriptOps where
  count : UInt16
  sat : Int
  dsat : Int
  deriving DecidableEq, Repr

/-- The largest numbers of stack elements of a satisfaction and of a dissatisfaction. -/
structure MiniscriptStacksize where
  sat : Int
  dsat : Int
  deriving DecidableEq, Repr

/-- The result of the analysis. The timelock flags `g`, `h`, `i` and `j` are relative time,
relative height, absolute time and absolute height; `k` says that they are not mixed, and
`x` that the last opcode has no verifying form. -/
structure PolicyNodeExtInfo where
  ops : MiniscriptOps
  ss : MiniscriptStacksize
  scriptSize : UInt16
  s : Bool
  f : Bool
  e : Bool
  m : Bool
  g : Bool
  h : Bool
  i : Bool
  j : Bool
  k : Bool
  x : Bool
  deriving DecidableEq, Repr

namespace PolicyNodeExtInfo

/-- The information as it is initialized: `m`, `k` and `x` are set in most cases. -/
def initial (scriptSize : UInt16) (ops : MiniscriptOps) (ss : MiniscriptStacksize) :
    PolicyNodeExtInfo where
  ops := ops
  ss := ss
  scriptSize := scriptSize
  s := false
  f := false
  e := false
  m := true
  g := false
  h := false
  i := false
  j := false
  k := true
  x := true

/-- The timelock flags of a node are those of its children. -/
def withTimelocks (info : PolicyNodeExtInfo) (children : List PolicyNodeExtInfo) :
    PolicyNodeExtInfo :=
  { info with
    g := children.any (·.g)
    h := children.any (·.h)
    i := children.any (·.i)
    j := children.any (·.j) }

/-- One script has a timelock in time and the other one in height, both relative or both
absolute. -/
def mixes (x y : PolicyNodeExtInfo) : Bool :=
  (x.g && y.h) || (x.h && y.g) || (x.i && y.j) || (x.j && y.i)

end PolicyNodeExtInfo

open PolicyNodeExtInfo (initial mixes)

/-! ## Sums and maxima of satisfactions -/

/-- The sum, unless one of the numbers is invalid; at most 32767. -/
def sumcheck (a b : Int) : Int :=
  if a < 0 ∨ b < 0 then -1 else if a + b > 32767 then 32767 else a + b

/-- The larger one of the valid numbers. -/
def maxcheck (a b : Int) : Int :=
  if a < 0 then b else if a > b then a else b

/-! ## Leaves -/

def constantExtInfo : ConstantToken → PolicyNodeExtInfo
  | .zero => { initial 1 ⟨0, -1, 0⟩ ⟨-1, 0⟩ with s := true, e := true }
  | .one => { initial 1 ⟨0, 0, -1⟩ ⟨0, -1⟩ with f := true }

def keyExtInfo : KeyToken → Option PolicyNodeExtInfo
  | .pkK => some { initial 34 ⟨0, 0, 0⟩ ⟨1, 1⟩ with s := true, e := true }
  | .pkH => some { initial 24 ⟨3, 0, 0⟩ ⟨2, 2⟩ with s := true, e := true }
  | .pk => some { initial 35 ⟨1, 0, 0⟩ ⟨1, 1⟩ with s := true, e := true, x := false }
  | .pkh => some { initial 25 ⟨4, 0, 0⟩ ⟨2, 2⟩ with s := true, e := true, x := false }
  | .wpkh => none

/-- The bit of a relative timelock that makes it a time. -/
def sequenceLocktimeTypeFlag : UInt32 := 0x400000

/-- The smallest absolute timelock that is a time. -/
def locktimeThreshold : UInt32 := 500000000

def timelockExtInfo (token : TimelockToken) (n : UInt32) : PolicyNodeExtInfo :=
  let info := { initial (UInt16.ofNat (1 + getPushScriptSize n)) ⟨1, 0, -1⟩ ⟨0, -1⟩ with f := true }
  match token with
  | .older =>
    if n &&& sequenceLocktimeTypeFlag ≠ 0 then { info with g := true }
    else { info with h := true }
  | .after =>
    if n ≥ locktimeThreshold then { info with i := true } else { info with j := true }

def hash256ExtInfo : PolicyNodeExtInfo :=
  { initial (4 + 2 + 33) ⟨4, 0, -1⟩ ⟨1, -1⟩ with x := false }

def hash160ExtInfo : PolicyNodeExtInfo :=
  { initial (4 + 2 + 21) ⟨4, 0, -1⟩ ⟨1, -1⟩ with x := false }

/-- Only `multi` is analysed: `sortedmulti` is not miniscript, and the multisignatures of
tapscript are not known to the analysis. -/
def multisigExtInfo (k n : Nat) : MultisigToken → Option PolicyNodeExtInfo
  | .multi =>
    let size := 1 + getPushScriptSize (UInt32.ofNat k) + getPushScriptSize (UInt32.ofNat n) +
      34 * n
    some { initial (UInt16.ofNat size) ⟨1, n, n⟩ ⟨k + 1, k + 1⟩ with
      s := true, e := true, x := false }
  | _ => none

/-! ## Combinators -/

def andorExtInfo (x y z : PolicyNodeExtInfo) : PolicyNodeExtInfo :=
  { initial (3 + x.scriptSize + y.scriptSize + z.scriptSize)
      ⟨3 + x.ops.count + y.ops.count + z.ops.count,
        maxcheck (sumcheck y.ops.sat x.ops.sat) (sumcheck y.ops.dsat z.ops.sat),
        sumcheck x.ops.dsat z.ops.dsat⟩
      ⟨maxcheck (sumcheck x.ss.sat y.ss.sat) (sumcheck x.ss.dsat z.ss.sat),
        sumcheck x.ss.dsat z.ss.dsat⟩ with
    s := z.s && (x.s || y.s)
    f := z.f && (x.s || y.f)
    e := z.e && (x.s || y.f)
    m := x.m && y.m && z.m && x.e && (x.s || y.s || z.s)
    k := (x.k && y.k && z.k) && !mixes x y }.withTimelocks [x, y, z]

def script2ExtInfo (x y : PolicyNodeExtInfo) : Script2Token → PolicyNodeExtInfo
  | .andV =>
    { initial (x.scriptSize + y.scriptSize)
        ⟨x.ops.count + y.ops.count, sumcheck x.ops.sat y.ops.sat, -1⟩
        ⟨sumcheck x.ss.sat y.ss.sat, -1⟩ with
      s := x.s || y.s
      f := x.s || y.f
      m := x.m && y.m
      k := (x.k && y.k) && !mixes x y
      x := y.x }.withTimelocks [x, y]
  | .andB =>
    { initial (1 + x.scriptSize + y.scriptSize)
        ⟨1 + x.ops.count + y.ops.count, sumcheck x.ops.sat y.ops.sat,
          sumcheck x.ops.dsat y.ops.dsat⟩
        ⟨sumcheck x.ss.sat y.ss.sat, sumcheck x.ss.dsat y.ss.dsat⟩ with
      s := x.s || y.s
      f := (x.f && y.f) || (x.s && x.f) || (y.s && y.f)
      e := x.e && y.e && x.s && y.s
      m := x.m && y.m
      k := (x.k && y.k) && !mixes x y }.withTimelocks [x, y]
  | .andN =>
    { initial (4 + x.scriptSize + y.scriptSize)
        ⟨3 + x.ops.count + y.ops.count,
          maxcheck (sumcheck y.ops.sat x.ops.sat) y.ops.dsat, x.ops.dsat⟩
        ⟨sumcheck x.ss.sat y.ss.sat, x.ss.dsat⟩ with
      s := x.s || y.s
      e := x.s || y.f
      m := x.m && y.m && x.e && (x.s || y.s)
      k := (x.k && y.k) && !mixes x y }.withTimelocks [x, y]
  | .orB =>
    { initial (1 + x.scriptSize + y.scriptSize)
        ⟨1 + x.ops.count + y.ops.count,
          maxcheck (sumcheck x.ops.sat y.ops.dsat) (sumcheck y.ops.sat x.ops.dsat),
          sumcheck x.ops.dsat y.ops.dsat⟩
        ⟨maxcheck (sumcheck x.ss.dsat y.ss.sat) (sumcheck x.ss.sat y.ss.dsat),
          sumcheck x.ss.dsat y.ss.dsat⟩ with
      s := x.s && y.s
      e := true
      m := x.m && y.m && x.e && y.e && (x.s || y.s)
      k := x.k && y.k }.withTimelocks [x, y]
  | .orC =>
    { initial (2 + x.scriptSize + y.scriptSize)
        ⟨2 + x.ops.count + y.ops.count, maxcheck x.ops.sat (sumcheck y.ops.sat x.ops.dsat), -1⟩
        ⟨maxcheck x.ss.sat (sumcheck x.ss.dsat y.ss.sat), -1⟩ with
      s := x.s && y.s
      f := true
      m := x.m && y.m && x.e && (x.s || y.s)
      k := x.k && y.k }.withTimelocks [x, y]
  | .orD =>
    { initial (3 + x.scriptSize + y.scriptSize)
        ⟨3 + x.ops.count + y.ops.count, maxcheck x.ops.sat (sumcheck y.ops.sat x.ops.dsat),
          sumcheck x.ops.dsat y.ops.dsat⟩
        ⟨maxcheck x.ss.sat (sumcheck x.ss.dsat y.ss.sat), sumcheck x.ss.dsat y.ss.dsat⟩ with
      s := x.s && y.s
      f := y.f
      e := y.e
      m := x.m && y.m && x.e && (x.s || y.s)
      k := x.k && y.k }.withTimelocks [x, y]
  | .orI =>
    { initial (3 + x.scriptSize + y.scriptSize)
        ⟨3 + x.ops.count + y.ops.count, maxcheck x.ops.sat y.ops.sat,
          maxcheck x.ops.dsat y.ops.dsat⟩
        ⟨maxcheck (sumcheck x.ss.sat 1) (sumcheck y.ss.sat 1),
          maxcheck (sumcheck x.ss.dsat 1) (sumcheck y.ss.dsat 1)⟩ with
      s := x.s && y.s
      f := x.f && y.f
      e := (x.e && y.f) || (y.e && x.f)
      m := x.m && y.m && (x.s || y.s)
      k := x.k && y.k }.withTimelocks [x, y]

/-! ## Thresholds -/

/-- The largest number of children of a threshold that the analysis handles. -/
def maxNInThresh : Nat := 128

/-- The next row of the table of a threshold: entry `j` is the largest cost of satisfying
`j` of the children seen so far. -/
def nextSats (sat dsat : Int) (sats : List Int) : List Int :=
  [sumcheck (sats.headD 0) dsat] ++
    List.zipWith (fun entry previous => maxcheck (sumcheck entry dsat) (sumcheck previous sat))
      sats.tail sats ++
    [sumcheck (sats.getLastD 0) sat]

/-- The entries of the table after all the children. -/
def threshSats (costs : List (Int × Int)) : List Int :=
  costs.foldl (fun sats (sat, dsat) => nextSats sat dsat sats) [0]

/-- The satisfaction and dissatisfaction costs of a threshold. The source reads entry `k`
of the table without checking `k` against the number of children; an entry beyond the table
is whatever the scratch memory holds there. -/
def threshCosts (scratch : Nat → Int) (k : Nat) (costs : List (Int × Int)) : Int × Int :=
  ((threshSats costs).getD k (scratch k), (threshSats costs).getD 0 (scratch 0))

/-- The loop over the timelock flags of the children: each child is compared with the union
that already contains it. -/
def threshTimelocks (k : Nat) (out child : PolicyNodeExtInfo) : PolicyNodeExtInfo :=
  let union := { out with
    g := out.g || child.g, h := out.h || child.h, i := out.i || child.i, j := out.j || child.j }
  { union with k := out.k && child.k && !(decide (k ≥ 2) && mixes child union) }

def threshExtInfo (scratch : Nat → Int) (k : Nat) (children : List PolicyNodeExtInfo) :
    Option PolicyNodeExtInfo :=
  if children.length > maxNInThresh then none
  else
    let ops := threshCosts scratch k (children.map fun child => (child.ops.sat, child.ops.dsat))
    let ss := threshCosts scratch k (children.map fun child => (child.ss.sat, child.ss.dsat))
    let count := children.foldl (fun count child => count + (child.ops.count + 1)) 0
    let size := (children.map (·.scriptSize.toNat)).sum + children.length +
      getPushScriptSize (UInt32.ofNat k)
    let countNotS : Int := children.length - children.countP (·.s)
    let info := initial (UInt16.ofNat size) ⟨count, ops.1, ops.2⟩ ⟨ss.1, ss.2⟩
    some { children.foldl (threshTimelocks k) info with
      s := countNotS ≤ k - 1
      e := children.countP (·.s) = children.length
      m := children.countP (·.e) = children.length && countNotS ≤ k
      x := false }

/-! ## Wrappers -/

/-- The information of a wrapper with the timelock flags of its child. -/
def wrapped (child : PolicyNodeExtInfo) (scriptSize : UInt16) (ops : MiniscriptOps)
    (ss : MiniscriptStacksize) : PolicyNodeExtInfo :=
  { initial scriptSize ops ss with
    s := child.s, m := child.m
    g := child.g, h := child.h, i := child.i, j := child.j, k := child.k }

def wrapperExtInfo (x : PolicyNodeExtInfo) : WrapperToken → PolicyNodeExtInfo
  | .a =>
    { wrapped x (x.scriptSize + 2) ⟨2 + x.ops.count, x.ops.sat, x.ops.dsat⟩ x.ss with
      f := x.f, e := x.e }
  | .s =>
    { wrapped x (x.scriptSize + 1) ⟨1 + x.ops.count, x.ops.sat, x.ops.dsat⟩ x.ss with
      f := x.f, e := x.e, x := x.x }
  | .n =>
    { wrapped x (x.scriptSize + 1) ⟨1 + x.ops.count, x.ops.sat, x.ops.dsat⟩ x.ss with
      f := x.f, e := x.e }
  | .c =>
    { wrapped x (x.scriptSize + 1) ⟨1 + x.ops.count, x.ops.sat, x.ops.dsat⟩ x.ss with
      s := true, f := x.f, e := x.e, x := false }
  | .d =>
    { wrapped x (x.scriptSize + 3) ⟨3 + x.ops.count, x.ops.sat, 0⟩
        ⟨sumcheck 1 x.ss.sat, 1⟩ with e := true }
  | .t =>
    { wrapped x (x.scriptSize + 1) ⟨x.ops.count, x.ops.sat, -1⟩ ⟨x.ss.sat, -1⟩ with f := true }
  | .v =>
    { wrapped x (x.scriptSize + UInt16.ofNat x.x.toNat)
        ⟨x.ops.count + UInt16.ofNat x.x.toNat, x.ops.sat, -1⟩ ⟨x.ss.sat, -1⟩ with f := true }
  | .j =>
    { wrapped x (x.scriptSize + 4) ⟨4 + x.ops.count, x.ops.sat, 0⟩ ⟨x.ss.sat, 1⟩ with
      e := x.f }
  | .l | .u =>
    { wrapped x (x.scriptSize + 4) ⟨3 + x.ops.count, x.ops.sat, x.ops.dsat⟩
        ⟨sumcheck x.ss.sat 1, maxcheck 1 (sumcheck x.ss.dsat 1)⟩ with e := x.f }

/-! ## Policies -/

mutual

/-- The analysis of a policy. Nodes that are not miniscript have no information. -/
def computeMiniscriptPolicyExtInfo (scratch : Nat → Int) :
    PolicyNode → Option PolicyNodeExtInfo
  | .constant token => some (constantExtInfo token)
  | .withKey token _ => keyExtInfo token
  | .withUint32 token n => some (timelockExtInfo token n)
  | .withHash256 _ _ => some hash256ExtInfo
  | .withHash160 _ _ => some hash160ExtInfo
  | .multisig token k keyPlaceholders => multisigExtInfo k keyPlaceholders.length token
  | .wrapper token script => do
    let x ← computeMiniscriptPolicyExtInfo scratch script
    return wrapperExtInfo x token
  | .withScript2 token first second => do
    let x ← computeMiniscriptPolicyExtInfo scratch first
    let y ← computeMiniscriptPolicyExtInfo scratch second
    return script2ExtInfo x y token
  | .andor first second third => do
    let x ← computeMiniscriptPolicyExtInfo scratch first
    let y ← computeMiniscriptPolicyExtInfo scratch second
    let z ← computeMiniscriptPolicyExtInfo scratch third
    return andorExtInfo x y z
  | .thresh k scriptlist => do
    let children ← computeExtInfos scratch scriptlist
    threshExtInfo scratch k children
  | .sh _ | .wsh _ | .tr _ _ => none

def computeExtInfos (scratch : Nat → Int) : List PolicyNode → Option (List PolicyNodeExtInfo)
  | [] => some []
  | script :: rest => do
    let info ← computeMiniscriptPolicyExtInfo scratch script
    let infos ← computeExtInfos scratch rest
    return info :: infos

end

/-! ## Analysed children -/

/-- The analysis of a script has the given results. -/
abbrev Analysed (scratch : Nat → Int) (script : PolicyNode) (info : PolicyNodeExtInfo) : Prop :=
  computeMiniscriptPolicyExtInfo scratch script = some info

section Analysed

variable {scratch : Nat → Int} {infos : List PolicyNodeExtInfo} {info : PolicyNodeExtInfo} {k : Nat}

theorem computeExtInfos_eq_some_iff {nodes : List PolicyNode} :
    computeExtInfos scratch nodes = some infos ↔ List.Forall₂ (Analysed scratch) nodes infos := by
  induction nodes generalizing infos with
  | nil =>
    rw [computeExtInfos, Option.some.injEq, forall₂_nil_left_iff]
    exact eq_comm
  | cons node rest ih =>
    simp only [computeExtInfos, Option.bind_eq_bind, Option.bind_eq_some_iff, Option.pure_def,
      Option.some.injEq, ih, forall₂_cons_left_iff]
    constructor
    · rintro ⟨info, analysed, others, othersAnalysed, rfl⟩
      exact ⟨info, others, analysed, othersAnalysed, rfl⟩
    · rintro ⟨info, others, analysed, othersAnalysed, rfl⟩
      exact ⟨info, analysed, others, othersAnalysed, rfl⟩

theorem exists_info_of_mem {α β : Type} {relation : α → β → Prop} {nodes : List α}
    {infos : List β} (related : List.Forall₂ relation nodes infos) {node : α}
    (mem : node ∈ nodes) : ∃ info ∈ infos, relation node info := by
  induction related with
  | nil => cases mem
  | cons head _ ih =>
    rcases mem_cons.mp mem with rfl | later
    · exact ⟨_, mem_cons_self, head⟩
    · obtain ⟨info, infoMem, holds⟩ := ih later
      exact ⟨info, mem_cons_of_mem _ infoMem, holds⟩

theorem forall₂_of_mem {α β : Type} {relation other : α → β → Prop} {nodes : List α}
    {infos : List β} (related : List.Forall₂ relation nodes infos)
    (each : ∀ node ∈ nodes, ∀ info, relation node info → other node info) :
    List.Forall₂ other nodes infos := by
  induction related with
  | nil => exact .nil
  | cons head _ ih =>
    obtain ⟨first, rest⟩ := forall_mem_cons.mp each
    exact .cons (first _ head) (ih rest)

/-- An analysed wrapper. -/
theorem analysed_wrapper {token : WrapperToken} {script : PolicyNode}
    (analysed : Analysed scratch (.wrapper token script) info) :
    ∃ x, Analysed scratch script x ∧ wrapperExtInfo x token = info := by
  simpa [Analysed, computeMiniscriptPolicyExtInfo, Option.bind_eq_some_iff] using analysed

/-- An analysed combinator of two scripts. -/
theorem analysed_withScript2 {token : Script2Token} {first second : PolicyNode}
    (analysed : Analysed scratch (.withScript2 token first second) info) :
    ∃ x y, Analysed scratch first x ∧ Analysed scratch second y ∧
      script2ExtInfo x y token = info := by
  simpa [Analysed, computeMiniscriptPolicyExtInfo, Option.bind_eq_some_iff] using analysed

theorem analysed_andor {first second third : PolicyNode}
    (analysed : Analysed scratch (.andor first second third) info) :
    ∃ x y z, Analysed scratch first x ∧ Analysed scratch second y ∧
      Analysed scratch third z ∧ andorExtInfo x y z = info := by
  simpa [Analysed, computeMiniscriptPolicyExtInfo, Option.bind_eq_some_iff] using analysed

/-- An analysed threshold. -/
theorem analysed_thresh {scriptlist : List PolicyNode}
    (analysed : Analysed scratch (.thresh k scriptlist) info) :
    ∃ infos, List.Forall₂ (Analysed scratch) scriptlist infos ∧
      threshExtInfo scratch k infos = some info := by
  simpa [Analysed, computeMiniscriptPolicyExtInfo, Option.bind_eq_some_iff,
    computeExtInfos_eq_some_iff] using analysed

theorem length_le_of_threshExtInfo (analysed : threshExtInfo scratch k infos = some info) :
    infos.length ≤ maxNInThresh := by
  by_contra large
  rw [threshExtInfo, if_pos (Nat.lt_of_not_le large)] at analysed
  cases analysed

/-- The loop over the timelock flags changes no other result. -/
theorem foldl_threshTimelocks (k : Nat) (children : List PolicyNodeExtInfo)
    (info : PolicyNodeExtInfo) :
    (children.foldl (threshTimelocks k) info).scriptSize = info.scriptSize ∧
      (children.foldl (threshTimelocks k) info).ops = info.ops ∧
      (children.foldl (threshTimelocks k) info).ss = info.ss := by
  induction children generalizing info with
  | nil => exact ⟨rfl, rfl, rfl⟩
  | cons child rest ih => exact ih (threshTimelocks k info child)

/-- The costs of an analysed threshold. -/
theorem costs_of_threshExtInfo (analysed : threshExtInfo scratch k infos = some info) :
    (info.ops.sat, info.ops.dsat) =
        threshCosts scratch k (infos.map fun child => (child.ops.sat, child.ops.dsat)) ∧
      (info.ss.sat, info.ss.dsat) =
        threshCosts scratch k (infos.map fun child => (child.ss.sat, child.ss.dsat)) := by
  rw [threshExtInfo, if_neg (Nat.not_lt_of_le (length_le_of_threshExtInfo analysed)),
    Option.some.injEq] at analysed
  subst analysed
  simp only [(foldl_threshTimelocks k infos _).2.1, (foldl_threshTimelocks k infos _).2.2,
    PolicyNodeExtInfo.initial, and_self]

/-- The children of an analysed node are analysed. -/
theorem computeExtInfo_child {node child : PolicyNode} (analysed : Analysed scratch node info)
    (mem : child ∈ node.children) :
    ∃ childInfo, Analysed scratch child childInfo := by
  cases node with
  | wrapper token script =>
    obtain ⟨x, childAnalysed, -⟩ := analysed_wrapper analysed
    rw [mem_singleton.mp mem]
    exact ⟨x, childAnalysed⟩
  | withScript2 token first second =>
    obtain ⟨x, y, analysedX, analysedY, -⟩ := analysed_withScript2 analysed
    rcases mem_pair.mp mem with rfl | rfl
    · exact ⟨x, analysedX⟩
    · exact ⟨y, analysedY⟩
  | andor first second third =>
    obtain ⟨x, y, z, analysedX, analysedY, analysedZ, -⟩ := analysed_andor analysed
    rcases mem_cons.mp mem with rfl | mem
    · exact ⟨x, analysedX⟩
    · rcases mem_pair.mp mem with rfl | rfl
      · exact ⟨y, analysedY⟩
      · exact ⟨z, analysedZ⟩
  | thresh k scriptlist =>
    obtain ⟨_, childrenAnalysed, -⟩ := analysed_thresh analysed
    obtain ⟨childInfo, -, childAnalysed⟩ := exists_info_of_mem childrenAnalysed mem
    exact ⟨childInfo, childAnalysed⟩
  | sh script | wsh script => cases analysed
  | _ => cases mem

end Analysed

end LedgerSyscoin.Common
