import LedgerSyscoin.Common.Wallet.ExtInfo
import LedgerSyscoin.Common.Wallet.Semantics
import LedgerSyscoin.Common.Wallet.WellTyped

/-!
# Soundness of the signature and timelock flags

The flags of the analysis against the branches of a policy: a policy with the flag
`s` asks for a signature on every branch, and a policy with the flag `k` has no
branch that mixes heights and times.
-/

namespace LedgerSyscoin.Common

open Foundation List

variable {scratch : Nat → Int} {flags inner : MiniscriptFlags} {x y info z out : PolicyNodeExtInfo}
  {token : Script2Token} {infos : List PolicyNodeExtInfo} {k : Nat} {node : PolicyNode}
  {used used' : List Condition} {n : UInt32}

/-! ## Signatures -/

theorem type_of_wrapperFlags {token : WrapperToken}
    (rule : wrapperFlags token inner = some flags) : flags.type ≠ .K := by
  cases token <;> simp only [wrapperFlags, Option.ite_none_left_eq_some, Option.some.injEq] at rule
  all_goals
    obtain ⟨-, rfl⟩ := rule
    nofun

theorem inner_type_of_c (rule : wrapperFlags .c inner = some flags) : inner.type = .K := by
  simp only [wrapperFlags, Option.ite_none_left_eq_some] at rule
  exact not_not.mp rule.1

theorem wrapperExtInfo_s {token : WrapperToken} (notC : token ≠ .c) :
    (wrapperExtInfo x token).s = x.s := by
  cases token <;> first | rfl | exact absurd rfl notC

/-- A combinator of type `K` is a conjunction whose second script, or a disjunction whose
scripts are of that type. -/
theorem type_of_script2Flags {first second : MiniscriptFlags}
    (rule : script2Flags token first second = some flags) (isK : flags.type = .K) :
    second.type = .K ∧ (token.isAnd = false → first.type = .K) := by
  cases token <;> simp only [script2Flags, Option.ite_none_left_eq_some, Option.some.injEq] at rule
  case andV =>
      obtain ⟨-, -, rfl⟩ := rule
      exact ⟨isK, nofun⟩
  case orI =>
      obtain ⟨-, same, rfl⟩ := rule
      exact ⟨(not_not.mp same) ▸ isK, fun _ => isK⟩
  case andB => obtain ⟨-, rfl⟩ := rule; cases isK
  all_goals
    obtain ⟨-, -, rfl⟩ := rule
    cases isK

theorem type_of_andorFlags {x y z : MiniscriptFlags}
    (rule : andorFlags x y z = some flags) (isK : flags.type = .K) : y.type = .K ∧ z.type = .K := by
  simp only [andorFlags, Option.ite_none_left_eq_some, Option.some.injEq] at rule
  obtain ⟨-, same, -, rfl⟩ := rule
  exact ⟨isK, (not_not.mp same) ▸ isK⟩

theorem s_of_script2ExtInfo_and
    (isAnd : token.isAnd = true) (s : (script2ExtInfo x y token).s = true) :
    x.s = true ∨ y.s = true := by
  cases token <;> first | exact Bool.or_eq_true_iff.mp s | cases isAnd

theorem s_of_script2ExtInfo_or
    (isOr : token.isAnd = false) (s : (script2ExtInfo x y token).s = true) :
    x.s = true ∧ y.s = true := by
  cases token <;> first | exact Bool.and_eq_true_iff.mp s | cases isOr

theorem s_of_andorExtInfo (s : (andorExtInfo x y z).s = true) :
    (x.s = true ∨ y.s = true) ∧ z.s = true := by
  obtain ⟨sZ, sXY⟩ := Bool.and_eq_true_iff.mp s
  exact ⟨Bool.or_eq_true_iff.mp sXY, sZ⟩

theorem timelockExtInfo_s (token : TimelockToken) (n : UInt32) :
    (timelockExtInfo token n).s = false := by
  cases token <;> simp only [timelockExtInfo] <;> split <;> rfl

/-- As many of the arguments have a property as of their analyses. -/
theorem countP_infos {nodes : List PolicyNode} (analysed : List.Forall₂
      (Analysed scratch) nodes infos)
    (property : PolicyNodeExtInfo → Bool) : infos.countP property =
      nodes.countP fun node => (computeMiniscriptPolicyExtInfo scratch node).any property := by
  induction analysed with
  | nil => rfl
  | cons head _ ih => rw [countP_cons, countP_cons, ih, head, Option.any_some]

theorem s_of_threshExtInfo
    (analysed : threshExtInfo scratch k infos = some info) (s : info.s = true) :
    infos.length < k + infos.countP (·.s) := by
  rw [threshExtInfo, if_neg (Nat.not_lt_of_le (length_le_of_threshExtInfo analysed)),
    Option.some.injEq] at analysed
  subst analysed
  have few := of_decide_eq_true s
  omega

/-- Every branch of a policy with the flag `s`, or of type `K`, asks for a signature. -/
theorem signature_mem_of_branch
    (branch : Branch node used) {flags : Option MiniscriptFlags} (wellTyped : WellTyped node flags)
    (analysed : Analysed scratch node info)
    (needed : info.s = true ∨ ∃ inner, flags = some inner ∧ inner.type = .K) :
    ∃ key, .signature key ∈ used := by
  induction branch generalizing flags info with
  | withKey token key => exact ⟨key, mem_singleton_self _⟩
  | @multisig token keyPlaceholders signers sublist =>
    cases wellTyped with
    | multisig _ positive enough few =>
      obtain ⟨key, mem⟩ := exists_mem_of_length_pos positive
      exact ⟨key, mem_map_of_mem mem⟩
  | wrapper token child ih =>
    obtain ⟨x, childAnalysed, rfl⟩ := analysed_wrapper analysed
    cases wellTyped with
    | wrapper typed rule =>
      refine ih typed childAnalysed ?_
      by_cases isC : token = .c
      · subst isC
        exact .inr ⟨_, rfl, inner_type_of_c rule⟩
      · rcases needed with s | ⟨flags, isFlags, isK⟩
        · exact .inl (wrapperExtInfo_s isC ▸ s)
        · cases isFlags
          exact absurd isK (type_of_wrapperFlags rule)
  | both isAnd left right leftIh rightIh =>
    obtain ⟨x, y, analysedX, analysedY, rfl⟩ := analysed_withScript2 analysed
    cases wellTyped with
    | withScript2 typedX typedY rule =>
      simp only [mem_append, exists_or]
      rcases needed with s | ⟨flags, isFlags, isK⟩
      · rcases s_of_script2ExtInfo_and isAnd s with sX | sY
        · exact .inl (leftIh typedX analysedX (.inl sX))
        · exact .inr (rightIh typedY analysedY (.inl sY))
      · cases isFlags
        exact .inr (rightIh typedY analysedY (.inr ⟨_, rfl, (type_of_script2Flags rule isK).1⟩))
  | first isOr left ih =>
    obtain ⟨x, y, analysedX, -, rfl⟩ := analysed_withScript2 analysed
    cases wellTyped with
    | withScript2 typedX typedY rule =>
      refine ih typedX analysedX (needed.imp (fun s => (s_of_script2ExtInfo_or isOr s).1) ?_)
      rintro ⟨flags, isFlags, isK⟩
      cases isFlags
      exact ⟨_, rfl, (type_of_script2Flags rule isK).2 isOr⟩
  | second isOr right ih =>
    obtain ⟨x, y, -, analysedY, rfl⟩ := analysed_withScript2 analysed
    cases wellTyped with
    | withScript2 typedX typedY rule =>
      refine ih typedY analysedY (needed.imp (fun s => (s_of_script2ExtInfo_or isOr s).2) ?_)
      rintro ⟨flags, isFlags, isK⟩
      cases isFlags
      exact ⟨_, rfl, (type_of_script2Flags rule isK).1⟩
  | andorThen left middle leftIh middleIh =>
    obtain ⟨x, y, z, analysedX, analysedY, -, rfl⟩ := analysed_andor analysed
    cases wellTyped with
    | andor typedX typedY typedZ rule =>
      simp only [mem_append, exists_or]
      rcases needed with s | ⟨flags, isFlags, isK⟩
      · rcases (s_of_andorExtInfo s).1 with sX | sY
        · exact .inl (leftIh typedX analysedX (.inl sX))
        · exact .inr (middleIh typedY analysedY (.inl sY))
      · cases isFlags
        exact .inr (middleIh typedY analysedY (.inr ⟨_, rfl, (type_of_andorFlags rule isK).1⟩))
  | andorElse right ih =>
    obtain ⟨x, y, z, -, -, analysedZ, rfl⟩ := analysed_andor analysed
    cases wellTyped with
    | andor typedX typedY typedZ rule =>
      refine ih typedZ analysedZ (needed.imp (fun s => (s_of_andorExtInfo s).2) ?_)
      rintro ⟨flags, isFlags, isK⟩
      cases isFlags
      exact ⟨_, rfl, (type_of_andorFlags rule isK).2⟩
  | @thresh scriptlist chosen sublist children ih =>
    obtain ⟨_, childrenAnalysed, threshAnalysed⟩ := analysed_thresh analysed
    rcases needed with s | ⟨flags, isFlags, isK⟩
    · -- more arguments are chosen than there are arguments without the flag
      have few := s_of_threshExtInfo threshAnalysed s
      rw [countP_infos childrenAnalysed, ← childrenAnalysed.length_eq] at few
      obtain ⟨_, mem, hasS⟩ := exists_mem_of_length_lt sublist
        (by rwa [length_map])
      obtain ⟨child, childMem, rfl⟩ := mem_map.mp mem
      obtain ⟨x, childAnalysed, sX⟩ := (Option.any_eq_true _ _).mp hasS
      obtain ⟨_, typed⟩ := wellTyped.child (sublist.subset mem)
      obtain ⟨key, keyMem⟩ := ih child childMem typed childAnalysed (.inl sX)
      exact ⟨key, mem_flatMap.mpr ⟨child, childMem, keyMem⟩⟩
    · cases wellTyped with
      | thresh =>
        cases isFlags
        cases isK
  | one | withHash256 | withHash160 =>
    cases wellTyped
    cases analysed
    rcases needed with s | ⟨flags, isFlags, isK⟩
    · cases s
    · cases isFlags
      cases isK
  | withUint32 token n =>
    cases wellTyped
    cases analysed
    rcases needed with s | ⟨flags, isFlags, isK⟩
    · rw [timelockExtInfo_s] at s
      cases s
    · cases isFlags
      cases isK

/-- The conditions that hold without a signature. -/
def Condition.unsigned : Condition → Bool
  | .signature _ => false
  | _ => true

/-- The four kinds of timelocks: relative and absolute, in time and in height. -/
inductive TimelockKind where
  | relativeTime | relativeHeight | absoluteTime | absoluteHeight
  deriving DecidableEq

def timelockKind : TimelockToken → UInt32 → TimelockKind
  | .older, n =>
    if n &&& sequenceLocktimeTypeFlag ≠ 0 then .relativeTime else .relativeHeight
  | .after, n => if n ≥ locktimeThreshold then .absoluteTime else .absoluteHeight

/-- The flag of a kind of timelocks. -/
def PolicyNodeExtInfo.has (info : PolicyNodeExtInfo) : TimelockKind → Bool
  | .relativeTime => info.g
  | .relativeHeight => info.h
  | .absoluteTime => info.i
  | .absoluteHeight => info.j

/-- The kind that cannot be used together with a kind. -/
def TimelockKind.opposite : TimelockKind → TimelockKind
  | .relativeTime => .relativeHeight
  | .relativeHeight => .relativeTime
  | .absoluteTime => .absoluteHeight
  | .absoluteHeight => .absoluteTime

/-- A timelock of a kind is among the conditions. -/
def Uses (used : List Condition) (kind : TimelockKind) : Prop :=
  ∃ token n, .timelock token n ∈ used ∧ timelockKind token n = kind

/-- No kind is used together with its opposite. -/
def Unmixed (used : List Condition) : Prop :=
  ∀ kind, Uses used kind → ¬ Uses used kind.opposite

variable {kind : TimelockKind}

theorem uses_append : Uses (used ++ used') kind ↔ Uses used kind ∨ Uses used' kind := by
  simp [Uses, or_and_right, exists_or]

theorem exists_uses_of_flatMap {chosen : List (PolicyNode × List Condition)}
    (uses : Uses (chosen.flatMap (·.2)) kind) : ∃ child ∈ chosen, Uses child.2 kind := by
  obtain ⟨token, n, mem, isKind⟩ := uses
  obtain ⟨child, childMem, used⟩ := mem_flatMap.mp mem
  exact ⟨child, childMem, token, n, used, isKind⟩

theorem opposite_of_not_mixes (unmixed : PolicyNodeExtInfo.mixes x y = false) (kind : TimelockKind)
    (has : x.has kind = true) : y.has kind.opposite = false := by
  cases kind <;> simp_all [PolicyNodeExtInfo.mixes, PolicyNodeExtInfo.has, TimelockKind.opposite]

theorem has_withTimelocks (info : PolicyNodeExtInfo) (children : List PolicyNodeExtInfo)
    (kind : TimelockKind) :
    (info.withTimelocks children).has kind = children.any (·.has kind) := by
  cases kind <;> rfl

theorem has_wrapperExtInfo (x : PolicyNodeExtInfo) (token : WrapperToken) (kind : TimelockKind) :
    (wrapperExtInfo x token).has kind = x.has kind := by
  cases token <;> cases kind <;> rfl

theorem has_script2ExtInfo (x y : PolicyNodeExtInfo) (token : Script2Token) (kind : TimelockKind) :
    (script2ExtInfo x y token).has kind = (x.has kind || y.has kind) := by
  cases token <;> simp [script2ExtInfo, has_withTimelocks]

theorem has_andorExtInfo (x y z : PolicyNodeExtInfo) (kind : TimelockKind) :
    (andorExtInfo x y z).has kind = (x.has kind || (y.has kind || z.has kind)) := by
  simp [andorExtInfo, has_withTimelocks]

theorem has_timelockExtInfo (token : TimelockToken) (n : UInt32) :
    (timelockExtInfo token n).has (timelockKind token n) = true := by
  cases token <;> simp only [timelockExtInfo, timelockKind] <;> split <;> rfl

theorem TimelockKind.opposite_opposite (kind : TimelockKind) : kind.opposite.opposite = kind := by
  cases kind <;> rfl

theorem has_threshTimelocks (k : Nat) (out child : PolicyNodeExtInfo) (kind : TimelockKind) :
    (threshTimelocks k out child).has kind = (out.has kind || child.has kind) := by
  cases kind <;> rfl

theorem has_foldl_threshTimelocks (k : Nat) (out : PolicyNodeExtInfo)
    (children : List PolicyNodeExtInfo) (kind : TimelockKind) :
    (children.foldl (threshTimelocks k) out).has kind =
      (out.has kind || children.any (·.has kind)) := by
  induction children generalizing out with
  | nil => simp
  | cons child rest ih =>
    rw [foldl_cons, ih, has_threshTimelocks, any_cons, Bool.or_assoc]

/-- A step of the loop over the arguments of a threshold keeps the flag `k` only if the argument
has it and, when more than one argument is needed, does not conflict with the union. -/
theorem k_of_threshTimelocks {child : PolicyNodeExtInfo}
    (unmixed : (threshTimelocks k out child).k = true) : out.k = true ∧ child.k = true ∧
      (2 ≤ k → ∀ kind, child.has kind = true →
        out.has kind.opposite = false ∧ child.has kind.opposite = false) := by
  have unfolded : (out.k && child.k &&
      !(decide (k ≥ 2) && PolicyNodeExtInfo.mixes child (threshTimelocks k out child))) = true :=
    unmixed
  simp only [Bool.and_eq_true, Bool.not_eq_true', Bool.and_eq_false_imp,
    decide_eq_true_eq] at unfolded
  obtain ⟨⟨outK, childK⟩, noConflict⟩ := unfolded
  refine ⟨outK, childK, fun several kind has => ?_⟩
  have absent := opposite_of_not_mixes (noConflict several) kind has
  rw [has_threshTimelocks, Bool.or_eq_false_iff] at absent
  exact absent

/-- The whole loop keeps the flag `k` only if no two arguments conflict. -/
theorem k_of_foldl_threshTimelocks {children : List PolicyNodeExtInfo}
    (unmixed : (children.foldl (threshTimelocks k) out).k = true) :
    out.k = true ∧ (∀ child ∈ children, child.k = true) ∧
      (2 ≤ k → ∀ kind, ∀ child ∈ children, child.has kind = true →
        out.has kind.opposite = false ∧
          ∀ other ∈ children, other.has kind.opposite = false) := by
  induction children generalizing out with
  | nil => exact ⟨unmixed, forall_mem_nil _, fun _ _ => forall_mem_nil _⟩
  | cons head rest ih =>
    rw [foldl_cons] at unmixed
    obtain ⟨stepK, restK, restUnmixed⟩ := ih unmixed
    obtain ⟨outK, headK, headUnmixed⟩ := k_of_threshTimelocks stepK
    refine ⟨outK, forall_mem_cons.mpr ⟨headK, restK⟩, fun several kind => ?_⟩
    simp only [has_threshTimelocks, Bool.or_eq_false_iff] at restUnmixed
    refine forall_mem_cons.mpr ⟨fun has => ?_, fun child mem has => ?_⟩
    · obtain ⟨outAbsent, headAbsent⟩ := headUnmixed several kind has
      refine ⟨outAbsent, forall_mem_cons.mpr ⟨headAbsent, fun other mem => ?_⟩⟩
      -- a later argument with the opposite kind would conflict with the head
      by_contra present
      have absent := (restUnmixed several kind.opposite other mem (by simpa using present)).1.2
      rw [TimelockKind.opposite_opposite, has] at absent
      cases absent
    · obtain ⟨⟨outAbsent, headAbsent⟩, restAbsent⟩ := restUnmixed several kind child mem has
      exact ⟨outAbsent, forall_mem_cons.mpr ⟨headAbsent, restAbsent⟩⟩

theorem timelocks_of_threshExtInfo (analysed : threshExtInfo scratch k infos = some info) :
    (∀ kind, info.has kind = infos.any (·.has kind)) ∧
      (info.k = true → (∀ child ∈ infos, child.k = true) ∧
        (2 ≤ k → ∀ kind, ∀ child ∈ infos, child.has kind = true →
          ∀ other ∈ infos, other.has kind.opposite = false)) := by
  rw [threshExtInfo, if_neg (Nat.not_lt_of_le (length_le_of_threshExtInfo analysed)),
    Option.some.injEq] at analysed
  subst analysed
  constructor
  · intro kind
    have folded := fun out => has_foldl_threshTimelocks k out infos kind
    cases kind <;> exact folded _
  · intro unmixed
    obtain ⟨-, childrenK, noConflict⟩ := k_of_foldl_threshTimelocks unmixed
    exact ⟨childrenK, fun several kind child mem has => (noConflict several kind child mem has).2⟩

theorem wrapperExtInfo_k (x : PolicyNodeExtInfo) (token : WrapperToken) :
    (wrapperExtInfo x token).k = x.k := by
  cases token <;> rfl

theorem k_of_script2ExtInfo (unmixed : (script2ExtInfo x y token).k = true) :
    x.k = true ∧ y.k = true ∧
      (token.isAnd = true → PolicyNodeExtInfo.mixes x y = false) := by
  cases token <;>
    simp_all [script2ExtInfo, PolicyNodeExtInfo.withTimelocks, Script2Token.isAnd]

theorem k_of_andorExtInfo (unmixed : (andorExtInfo x y z).k = true) :
    x.k = true ∧ y.k = true ∧ z.k = true ∧ PolicyNodeExtInfo.mixes x y = false := by
  simp_all [andorExtInfo, PolicyNodeExtInfo.withTimelocks]

/-- The analysis has the flags of all the timelocks on a branch. -/
theorem has_of_branch (branch : Branch node used)
    (analysed : Analysed scratch node info) (uses : Uses used kind) :
    info.has kind = true := by
  induction branch generalizing info with
  | withUint32 token n =>
    cases analysed
    obtain ⟨token', n', mem, rfl⟩ := uses
    cases mem_singleton.mp mem
    exact has_timelockExtInfo token n
  | wrapper token child ih =>
    obtain ⟨x, childAnalysed, rfl⟩ := analysed_wrapper analysed
    rw [has_wrapperExtInfo]
    exact ih childAnalysed uses
  | both isAnd left right leftIh rightIh =>
    obtain ⟨x, y, analysedX, analysedY, rfl⟩ := analysed_withScript2 analysed
    rw [has_script2ExtInfo, Bool.or_eq_true_iff]
    exact (uses_append.mp uses).imp (leftIh analysedX) (rightIh analysedY)
  | first isOr left ih =>
    obtain ⟨x, y, analysedX, -, rfl⟩ := analysed_withScript2 analysed
    rw [has_script2ExtInfo, ih analysedX uses, Bool.true_or]
  | second isOr right ih =>
    obtain ⟨x, y, -, analysedY, rfl⟩ := analysed_withScript2 analysed
    rw [has_script2ExtInfo, ih analysedY uses, Bool.or_true]
  | andorThen left middle leftIh middleIh =>
    obtain ⟨x, y, z, analysedX, analysedY, -, rfl⟩ := analysed_andor analysed
    rw [has_andorExtInfo, ← Bool.or_assoc, Bool.or_eq_true_iff, Bool.or_eq_true_iff]
    exact .inl ((uses_append.mp uses).imp (leftIh analysedX) (middleIh analysedY))
  | andorElse right ih =>
    obtain ⟨x, y, z, -, -, analysedZ, rfl⟩ := analysed_andor analysed
    rw [has_andorExtInfo, ih analysedZ uses, Bool.or_true, Bool.or_true]
  | @thresh scriptlist chosen sublist children ih =>
    obtain ⟨_, childrenAnalysed, threshAnalysed⟩ := analysed_thresh analysed
    obtain ⟨child, mem, childUses⟩ := exists_uses_of_flatMap uses
    obtain ⟨x, infoMem, childAnalysed⟩ :=
      exists_info_of_mem childrenAnalysed (sublist.subset (mem_map_of_mem mem))
    rw [(timelocks_of_threshExtInfo threshAnalysed).1]
    exact any_eq_true.mpr ⟨x, infoMem, ih child mem childAnalysed childUses⟩
  | multisig token sublist =>
    obtain ⟨token', n', mem, -⟩ := uses
    obtain ⟨_, -, isSignature⟩ := mem_map.mp mem
    cases isSignature
  | _ =>
    obtain ⟨token', n', mem, -⟩ := uses
    simp at mem

theorem unmixed_append (left : Unmixed used) (right : Unmixed used')
    (apart : ∀ kind, Uses used kind → ¬ Uses used' kind.opposite) : Unmixed (used ++ used') := by
  intro kind uses opposite
  rcases uses_append.mp uses with inLeft | inRight <;>
    rcases uses_append.mp opposite with oppositeLeft | oppositeRight
  · exact left kind inLeft oppositeLeft
  · exact apart kind inLeft oppositeRight
  · refine apart _ oppositeLeft ?_
    rwa [TimelockKind.opposite_opposite]
  · exact right kind inRight oppositeRight

/-- Branches of two scripts that the analysis finds compatible do not mix timelocks with each
other. -/
theorem apart_of_mixes_eq_false {first second : PolicyNode} (left : Branch first used)
    (right : Branch second used')
    (analysedX : Analysed scratch first x)
    (analysedY : Analysed scratch second y)
    (compatible : ∀ kind, x.has kind = true → y.has kind.opposite = false) (kind : TimelockKind)
    (uses : Uses used kind) : ¬ Uses used' kind.opposite := by
  intro opposite
  have absent := compatible kind (has_of_branch left analysedX uses)
  rw [has_of_branch right analysedY opposite] at absent
  cases absent

/-- No branch of a policy with the flag `k` mixes heights and times. -/
theorem unmixed_of_branch (branch : Branch node used) (analysed : Analysed scratch node info)
    (k : info.k = true) : Unmixed used := by
  induction branch generalizing info with
  | withUint32 token n =>
    rintro kind ⟨_, _, mem, rfl⟩ ⟨_, _, mem', opposite⟩
    cases mem_singleton.mp mem
    cases mem_singleton.mp mem'
    revert opposite
    cases timelockKind token n <;> nofun
  | wrapper token child ih =>
    obtain ⟨x, childAnalysed, rfl⟩ := analysed_wrapper analysed
    rw [wrapperExtInfo_k] at k
    exact ih childAnalysed k
  | both isAnd left right leftIh rightIh =>
    obtain ⟨x, y, analysedX, analysedY, rfl⟩ := analysed_withScript2 analysed
    obtain ⟨kX, kY, compatible⟩ := k_of_script2ExtInfo k
    exact unmixed_append (leftIh analysedX kX) (rightIh analysedY kY)
      (apart_of_mixes_eq_false left right analysedX analysedY
        (opposite_of_not_mixes (compatible isAnd)))
  | first isOr left ih =>
    obtain ⟨x, y, analysedX, -, rfl⟩ := analysed_withScript2 analysed
    exact ih analysedX (k_of_script2ExtInfo k).1
  | second isOr right ih =>
    obtain ⟨x, y, -, analysedY, rfl⟩ := analysed_withScript2 analysed
    exact ih analysedY (k_of_script2ExtInfo k).2.1
  | andorThen left middle leftIh middleIh =>
    obtain ⟨x, y, z, analysedX, analysedY, -, rfl⟩ := analysed_andor analysed
    obtain ⟨kX, kY, -, compatible⟩ := k_of_andorExtInfo k
    exact unmixed_append (leftIh analysedX kX) (middleIh analysedY kY)
      (apart_of_mixes_eq_false left middle analysedX analysedY
        (opposite_of_not_mixes compatible))
  | andorElse right ih =>
    obtain ⟨x, y, z, -, -, analysedZ, rfl⟩ := analysed_andor analysed
    exact ih analysedZ (k_of_andorExtInfo k).2.2.1
  | @thresh scriptlist chosen sublist children ih =>
    obtain ⟨infos, childrenAnalysed, threshAnalysed⟩ := analysed_thresh analysed
    obtain ⟨childrenK, noConflict⟩ := (timelocks_of_threshExtInfo threshAnalysed).2 k
    have infoOf : ∀ child ∈ chosen, ∃ x ∈ infos,
        Analysed scratch child.1 x := fun child mem =>
      exists_info_of_mem childrenAnalysed (sublist.subset (mem_map_of_mem mem))
    intro kind uses opposite
    obtain ⟨child, mem, childUses⟩ := exists_uses_of_flatMap uses
    obtain ⟨other, otherMem, otherUses⟩ := exists_uses_of_flatMap opposite
    obtain ⟨x, xMem, analysedX⟩ := infoOf child mem
    obtain ⟨y, yMem, analysedY⟩ := infoOf other otherMem
    by_cases several : 2 ≤ chosen.length
    · exact apart_of_mixes_eq_false (children child mem) (children other otherMem) analysedX
        analysedY (fun kind has => noConflict several kind x xMem has y yMem) kind childUses
        otherUses
    · -- a single chosen argument is its own only partner
      have some := length_pos_of_mem mem
      obtain ⟨only, rfl⟩ := length_eq_one_iff.mp (show chosen.length = 1 by omega)
      obtain rfl : child = other := by
        rw [mem_singleton.mp mem, mem_singleton.mp otherMem]
      exact ih child mem analysedX (childrenK x xMem) kind childUses otherUses
  | multisig token sublist =>
    rintro kind ⟨_, _, mem, -⟩
    obtain ⟨_, -, isSignature⟩ := mem_map.mp mem
    cases isSignature
  | _ =>
    rintro kind ⟨_, _, mem, -⟩
    simp at mem

/-! ## Transaction fields -/

def sequenceLocktimeDisableFlag : UInt32 := 0x80000000

def sequenceLocktimeMask : UInt32 := 0xffff

/-- `CHECKSEQUENCEVERIFY` of `n` passes in an input with the given sequence number. -/
def SequenceAllows (nSequence n : UInt32) : Prop :=
  n &&& sequenceLocktimeDisableFlag ≠ 0 ∨
    (nSequence &&& sequenceLocktimeDisableFlag = 0 ∧
      (n &&& sequenceLocktimeTypeFlag ≠ 0 ↔ nSequence &&& sequenceLocktimeTypeFlag ≠ 0) ∧
      n &&& sequenceLocktimeMask ≤ nSequence &&& sequenceLocktimeMask)

/-- `CHECKLOCKTIMEVERIFY` of `n` passes with the given locktime and sequence number. -/
def LocktimeAllows (nLockTime nSequence n : UInt32) : Prop :=
  nSequence ≠ 0xffffffff ∧ (n ≥ locktimeThreshold ↔ nLockTime ≥ locktimeThreshold) ∧ n ≤ nLockTime

/-- All the timelocks among the conditions pass with the given fields of a transaction. -/
def TimelocksPass (nSequence nLockTime : UInt32) (used : List Condition) : Prop :=
  (∀ n, .timelock .older n ∈ used → SequenceAllows nSequence n) ∧
    ∀ n, .timelock .after n ∈ used → LocktimeAllows nLockTime nSequence n

theorem and_le_right (a b : UInt32) : a &&& b ≤ b := by
  rw [UInt32.le_iff_toNat_le, UInt32.toNat_and]
  exact Nat.and_le_right

theorem timelockKind_older_eq :
    timelockKind .older n = .relativeTime ↔ n &&& sequenceLocktimeTypeFlag ≠ 0 := by
  simp only [timelockKind]
  split <;> simp_all

theorem timelockKind_after_eq : timelockKind .after n = .absoluteTime ↔ n ≥ locktimeThreshold := by
  simp only [timelockKind]
  split <;> simp_all

/-- Relative timelocks that are all times or all heights have a common sequence number. -/
theorem exists_sequence (unmixed : Unmixed used) : ∃ nSequence : UInt32, nSequence ≠ 0xffffffff ∧
      ∀ n, .timelock .older n ∈ used → SequenceAllows nSequence n := by
  by_cases time : Uses used .relativeTime
  · refine ⟨0x40ffff, by decide, fun n mem => .inr ⟨by decide, ?_, and_le_right _ _⟩⟩
    refine iff_of_true (fun isHeight => ?_) (by decide)
    refine unmixed _ time ⟨.older, n, mem, ?_⟩
    simp [timelockKind, isHeight, TimelockKind.opposite]
  · refine ⟨0xffff, by decide, fun n mem => .inr ⟨by decide, ?_, and_le_right _ _⟩⟩
    refine iff_of_false (fun isTime => time ⟨.older, n, mem, ?_⟩) (by decide)
    exact timelockKind_older_eq.mpr isTime

/-- Absolute timelocks that are all times or all heights have a common locktime. -/
theorem exists_locktime (unmixed : Unmixed used) :
    ∃ nLockTime : UInt32, ∀ n, .timelock .after n ∈ used →
      (n ≥ locktimeThreshold ↔ nLockTime ≥ locktimeThreshold) ∧ n ≤ nLockTime := by
  by_cases time : Uses used .absoluteTime
  · refine ⟨0xffffffff, fun n mem => ⟨?_, ?_⟩⟩
    · refine iff_of_true ?_ (by decide)
      by_contra isHeight
      refine unmixed _ time ⟨.after, n, mem, ?_⟩
      simp [timelockKind, isHeight, TimelockKind.opposite]
    · rw [UInt32.le_iff_toNat_le]
      exact Nat.le_of_lt_succ n.toNat_lt
  · have height : ∀ n, .timelock .after n ∈ used → ¬ n ≥ locktimeThreshold := fun n mem isTime =>
      time ⟨.after, n, mem, timelockKind_after_eq.mpr isTime⟩
    refine ⟨locktimeThreshold - 1, fun n mem => ⟨iff_of_false (height n mem) (by decide), ?_⟩⟩
    have below := height n mem
    rw [ge_iff_le, UInt32.le_iff_toNat_le] at below
    rw [UInt32.le_iff_toNat_le]
    exact Nat.le_pred_of_lt (Nat.lt_of_not_le below)

/-- A policy with the flag `k` has no branch with both a relative height and a relative time, or
with both an absolute height and an absolute time, so that one sequence number and one locktime
let all the timelocks of a branch pass. -/
theorem timelocks_consistent {script : PolicyNode} {info : PolicyNodeExtInfo}
    (analysed : computeMiniscriptPolicyExtInfo scratch script = some info) (k : info.k = true)
    {used : List Condition} (branch : Branch script used) :
    Unmixed used ∧ ∃ nSequence nLockTime, TimelocksPass nSequence nLockTime used := by
  have unmixed := unmixed_of_branch branch analysed k
  obtain ⟨nSequence, notFinal, sequence⟩ := exists_sequence unmixed
  obtain ⟨nLockTime, locktime⟩ := exists_locktime unmixed
  exact ⟨unmixed, nSequence, nLockTime, sequence, fun n mem => ⟨notFinal, locktime n mem⟩⟩

/-- `and_v(v:pk(@0/**),older(1000))` -/
def sampleDelayedKey : PolicyNode :=
  .withScript2 .andV (.wrapper .v (.withKey .pk ⟨0, 1, 0⟩)) (.withUint32 .older 1000)

theorem timelocks_consistent_delayed_key :
    ∃ nSequence nLockTime,
      TimelocksPass nSequence nLockTime [.signature ⟨0, 1, 0⟩, .timelock .older 1000] := by
  have branch : Branch sampleDelayedKey [.signature ⟨0, 1, 0⟩, .timelock .older 1000] :=
    .both rfl (.wrapper .v (.withKey .pk _)) (.withUint32 .older 1000)
  obtain ⟨info, analysed, k⟩ : ∃ info,
      computeMiniscriptPolicyExtInfo (fun _ => 0) sampleDelayedKey = some info ∧ info.k = true :=
    ⟨_, rfl, by decide⟩
  exact (timelocks_consistent analysed k branch).2

end LedgerSyscoin.Common
