import LedgerSyscoin.Common.ScriptCount
import LedgerSyscoin.Common.Wallet.Equality
import LedgerSyscoin.Common.Wallet.ExtInfo
import LedgerSyscoin.Common.Wallet.WellTyped
import LedgerSyscoin.Handler.Lib.Policy.Correctness

/-!
# Static sizes and opcode counts

The static analysis of a miniscript policy and the script compiler traverse the
same syntax tree. For every policy that the template parser accepts inside `wsh`
the size and the number of opcodes computed by the analysis are those of the
compiled script, modulo `2 ^ 16`.
-/

namespace LedgerSyscoin.Handler

open Foundation Common List

/-! ## The measures of a script -/

/-- The analysis of a node describes its script: the size and the opcode count as 16-bit
words, and whether the last opcode has no verifying form. -/
structure Measures (info : PolicyNodeExtInfo) (script : Script) : Prop where
  nonempty : script ≠ []
  direct : ∀ item ∈ script, item.Direct
  size : info.scriptSize = UInt16.ofNat script.bytes.length
  count : info.ops.count = UInt16.ofNat script.opcodes
  last : info.x = !script.endsInVerifyForm

variable {info : PolicyNodeExtInfo}

section Leaves

variable (keys : KeySource)

theorem length_keyHash (key : KeyPlaceholder) : (keys.keyHash key).length = 20 :=
  (keys.hash160 (keys.pubkey key).val).property

theorem measures_constant (token : ConstantToken) :
    Measures (constantExtInfo token) (compile keys false (.constant token)) := by
  cases token <;> constructor <;>
    simp +decide [compile, compileLeaf, constantExtInfo, PolicyNodeExtInfo.initial]

theorem measures_withKey (token : KeyToken) (key : KeyPlaceholder)
    (analysed : keyExtInfo token = some info) :
    Measures info (compile keys false (.withKey token key)) := by
  have dataLength : (keys.keyData false key).length = 33 := length_keyData false key
  have hashLength := length_keyHash keys key
  cases token with
  | wpkh => cases analysed
  | _ =>
    cases analysed
    constructor <;> simp +decide [compile, compileLeaf, PolicyNodeExtInfo.initial, dataLength,
      hashLength]

theorem measures_withUint32 (token : TimelockToken) (n : UInt32) :
    Measures (timelockExtInfo token n) (compile keys false (.withUint32 token n)) := by
  have size : (timelockExtInfo token n).scriptSize =
      UInt16.ofNat (1 + getPushScriptSize n) := by
    unfold timelockExtInfo
    cases token <;> simp only <;> split <;> rfl
  have count : (timelockExtInfo token n).ops.count = 1 := by
    unfold timelockExtInfo
    cases token <;> simp only <;> split <;> rfl
  have last : (timelockExtInfo token n).x = true := by
    unfold timelockExtInfo
    cases token <;> simp only <;> split <;> rfl
  constructor
  case size => simp [size, compile, compileLeaf, Nat.add_comm]
  case count => cases token <;> simp +decide [count, compile, compileLeaf, timelockOpcode]
  case last => cases token <;> simp +decide [last, compile, compileLeaf, timelockOpcode]
  all_goals cases token <;> simp +decide [compile, compileLeaf, timelockOpcode]

theorem measures_withHash256 (token : Hash256Token) (h : Hash256) :
    Measures hash256ExtInfo (compile keys false (.withHash256 token h)) := by
  have hashLength := h.property
  cases token <;> constructor <;>
    simp +decide [compile, compileLeaf, hash256ExtInfo, PolicyNodeExtInfo.initial, hashLength,
      hash256Opcode]

theorem measures_withHash160 (token : Hash160Token) (h : Hash160) :
    Measures hash160ExtInfo (compile keys false (.withHash160 token h)) := by
  have hashLength := h.property
  cases token <;> constructor <;>
    simp +decide [compile, compileLeaf, hash160ExtInfo, PolicyNodeExtInfo.initial, hashLength,
      hash160Opcode]

/-- Pushes of keys have 34 bytes each and no opcodes. -/
theorem pushes_spec {pubkeys : List Bytes} (lengths : ∀ key ∈ pubkeys, key.length = 33) :
    (Script.bytes (pubkeys.map .push)).length = 34 * pubkeys.length ∧
      Script.opcodes (pubkeys.map .push) = 0 ∧
        ∀ item ∈ pubkeys.map ScriptItem.push, item.Direct := by
  induction pubkeys with
  | nil => simp
  | cons key rest ih =>
    obtain ⟨keyLength, restLengths⟩ := forall_mem_cons.mp lengths
    obtain ⟨size, count, direct⟩ := ih restLengths
    rw [map_cons]
    refine ⟨?_, ?_, forall_mem_cons.mpr ⟨?_, direct⟩⟩
    · simp only [Script.bytes_cons, length_append, ScriptItem.length_bytes_push, keyLength,
        size, length_cons]
      omega
    · simp [count]
    · simp [keyLength]

theorem measures_multisig (token : MultisigToken) (k : Nat) (placeholders : List KeyPlaceholder)
    (analysed : multisigExtInfo k placeholders.length token = some info) :
    Measures info (compile keys false (.multisig token k placeholders)) := by
  cases token with
  | multi =>
    cases analysed
    have lengths : ∀ key ∈ placeholders.map (keys.keyData false), key.length = 33 := by
      intro data mem
      obtain ⟨key, -, rfl⟩ := mem_map.mp mem
      exact length_keyData false key
    obtain ⟨size, count, direct⟩ := pushes_spec lengths
    rw [length_map] at size
    constructor
    case nonempty => simp [compile, compileLeaf]
    case direct =>
      simp only [compile, compileLeaf, multisigKeys, forall_mem_append]
      exact ⟨⟨by simp, direct⟩, by simp +decide⟩
    case size =>
      simp only [compile, compileLeaf, multisigKeys, PolicyNodeExtInfo.initial,
        Script.bytes_append, Script.bytes_cons, Script.bytes_nil, length_append,
        length_bytes_pushInteger, ScriptItem.length_bytes_op, size, length_map,
        length_nil]
      congr 1
      omega
    case count =>
      simp only [compile, compileLeaf, multisigKeys, PolicyNodeExtInfo.initial,
        Script.opcodes_append, count]
      simp +decide
    case last => simp +decide [compile, compileLeaf]
  | _ => cases analysed

end Leaves

/-! ## Fragments with children -/

section Children

variable {x y z : PolicyNodeExtInfo} {first second third : Script}

theorem measures_wrapper (token : WrapperToken) (child : Measures x first) :
    Measures (wrapperExtInfo x token) (compileWrapper first token) := by
  have nonempty := child.nonempty
  cases token
  case v =>
    refine ⟨Script.verify_ne_nil nonempty, Script.direct_verify nonempty child.direct, ?_, ?_, ?_⟩
    · simp [wrapperExtInfo, wrapped, PolicyNodeExtInfo.initial, compileWrapper,
        Script.length_bytes_verify nonempty, child.size, child.last, UInt16.ofNat_add]
    · simp [wrapperExtInfo, wrapped, PolicyNodeExtInfo.initial, compileWrapper,
        Script.opcodes_verify nonempty, child.count, child.last, UInt16.ofNat_add]
    · simp [wrapperExtInfo, wrapped, PolicyNodeExtInfo.initial, compileWrapper,
        Script.endsInVerifyForm_verify nonempty]
  all_goals
    constructor
    case nonempty => simp [compileWrapper, nonempty]
    case direct => simpa +decide [compileWrapper, or_imp, forall_and] using child.direct
    case size =>
      apply UInt16.toNat_inj.mp
      simp [wrapperExtInfo, wrapped, PolicyNodeExtInfo.initial, compileWrapper, child.size]
      try omega
    case count =>
      apply UInt16.toNat_inj.mp
      simp +decide [wrapperExtInfo, wrapped, PolicyNodeExtInfo.initial, compileWrapper, child.count]
      try omega
    case last =>
      simp +decide [wrapperExtInfo, wrapped, PolicyNodeExtInfo.initial, compileWrapper, child.last,
        nonempty]

theorem measures_script2 (token : Script2Token) (left : Measures x first)
    (right : Measures y second) :
    Measures (script2ExtInfo x y token) (compileScript2 first second token) := by
  have nonempty := right.nonempty
  cases token
  all_goals
    constructor
    case nonempty => simp [compileScript2, nonempty]
    case direct =>
      simpa +decide [compileScript2, or_imp, forall_and] using ⟨left.direct, right.direct⟩
    case size =>
      apply UInt16.toNat_inj.mp
      simp [script2ExtInfo, PolicyNodeExtInfo.withTimelocks, PolicyNodeExtInfo.initial,
        compileScript2, left.size, right.size]
      try omega
    case count =>
      apply UInt16.toNat_inj.mp
      simp +decide [script2ExtInfo, PolicyNodeExtInfo.withTimelocks, PolicyNodeExtInfo.initial,
        compileScript2, left.count, right.count]
      try omega
    case last =>
      simp +decide [script2ExtInfo, PolicyNodeExtInfo.withTimelocks, PolicyNodeExtInfo.initial,
        compileScript2, right.last, nonempty]

theorem measures_andor (left : Measures x first) (middle : Measures y second)
    (right : Measures z third) :
    Measures (andorExtInfo x y z)
      (first ++ [.op opNotif] ++ third ++ [.op opElse] ++ second ++ [.op opEndif]) := by
  constructor
  case nonempty => simp
  case direct =>
    simpa +decide [or_imp, forall_and] using ⟨left.direct, right.direct, middle.direct⟩
  case size =>
    apply UInt16.toNat_inj.mp
    simp [andorExtInfo, PolicyNodeExtInfo.withTimelocks, PolicyNodeExtInfo.initial, left.size,
      middle.size, right.size]
    omega
  case count =>
    apply UInt16.toNat_inj.mp
    simp +decide [andorExtInfo, PolicyNodeExtInfo.withTimelocks, PolicyNodeExtInfo.initial,
      left.count, middle.count, right.count]
    omega
  case last =>
    simp +decide [andorExtInfo, PolicyNodeExtInfo.withTimelocks, PolicyNodeExtInfo.initial]

end Children

/-! ## Thresholds -/

section Thresholds

variable {infos : List PolicyNodeExtInfo} {scripts : List Script}

/-- The sum of the sizes that the analysis computes, up to the width of a word. -/
theorem sum_scriptSize (measures : List.Forall₂ Measures infos scripts) :
    UInt16.ofNat (infos.map (·.scriptSize.toNat)).sum =
      UInt16.ofNat (scripts.map fun script => script.bytes.length).sum := by
  induction measures with
  | nil => rfl
  | cons head _ ih =>
    simp only [map_cons, sum_cons, UInt16.ofNat_add, ih, head.size, UInt16.ofNat_toNat]

theorem foldl_count (measures : List.Forall₂ Measures infos scripts) (count : UInt16) :
    infos.foldl (fun count child => count + (child.ops.count + 1)) count =
      count + UInt16.ofNat ((scripts.map Script.opcodes).sum + scripts.length) := by
  induction measures generalizing count with
  | nil => simp
  | cons head _ ih =>
    rw [foldl_cons, ih, head.count]
    apply UInt16.toNat_inj.mp
    simp only [map_cons, sum_cons, length_cons, UInt16.toNat_add,
      UInt16.toNat_ofNat', UInt16.reduceToNat]
    omega

/-- The scripts behind the first one, each followed by an `ADD`. -/
theorem flatMap_add_spec (scripts : List Script)
    (direct : ∀ script ∈ scripts, ∀ item ∈ script, ScriptItem.Direct item) :
    (Script.bytes (scripts.flatMap fun script => script ++ [.op opAdd])).length =
        (scripts.map fun script => script.bytes.length).sum + scripts.length ∧
      Script.opcodes (scripts.flatMap fun script => script ++ [.op opAdd]) =
        (scripts.map Script.opcodes).sum + scripts.length ∧
      ∀ item ∈ scripts.flatMap fun script => script ++ [.op opAdd], ScriptItem.Direct item := by
  induction scripts with
  | nil => simp
  | cons script rest ih =>
    obtain ⟨scriptDirect, restDirect⟩ := forall_mem_cons.mp direct
    obtain ⟨size, count, restItems⟩ := ih restDirect
    rw [flatMap_cons]
    refine ⟨?_, ?_, ?_⟩
    · simp only [Script.bytes_append, length_append, size, Script.bytes_cons,
        Script.bytes_nil, ScriptItem.length_bytes_op, length_nil, map_cons,
        sum_cons, length_cons]
      omega
    · simp +decide only [Script.opcodes_append, count, Script.opcodes_cons, Script.opcodes_nil,
        ScriptItem.opcodes_op, map_cons, sum_cons, length_cons, if_true]
      omega
    · refine forall_mem_append.mpr ⟨forall_mem_append.mpr ⟨scriptDirect, ?_⟩, restItems⟩
      simp +decide

theorem measures_thresh (scratch : Nat → Int) (k : Nat)
    (nonempty : scripts ≠ []) (measures : List.Forall₂ Measures infos scripts)
    (analysed : threshExtInfo scratch k infos = some info) :
    Measures info (addScripts scripts ++ [pushInteger (UInt32.ofNat k), .op opEqual]) := by
  have sizes := sum_scriptSize measures
  have counts := foldl_count measures 0
  have lengths := measures.length_eq
  have direct : ∀ script ∈ scripts, ∀ item ∈ script, ScriptItem.Direct item := by
    clear sizes counts lengths nonempty analysed
    induction measures with
    | nil => exact fun _ mem => nomatch mem
    | cons head _ ih => exact forall_mem_cons.mpr ⟨head.direct, ih⟩
  obtain ⟨script, rest, rfl⟩ := exists_cons_of_ne_nil nonempty
  obtain ⟨scriptDirect, restDirect⟩ := forall_mem_cons.mp direct
  obtain ⟨restSize, restCount, restItems⟩ := flatMap_add_spec rest restDirect
  unfold threshExtInfo at analysed
  split at analysed
  · cases analysed
  · simp only [Option.some.injEq] at analysed
    subst analysed
    constructor
    case nonempty => simp
    case direct =>
      refine forall_mem_append.mpr ⟨forall_mem_append.mpr ⟨scriptDirect, restItems⟩, ?_⟩
      simp +decide
    case size =>
      simp only [(foldl_threshTimelocks k infos _).1, PolicyNodeExtInfo.initial, addScripts,
        Script.bytes_append, length_append, restSize, Script.bytes_cons, Script.bytes_nil,
        length_bytes_pushInteger, ScriptItem.length_bytes_op, length_nil, UInt16.ofNat_add,
        sizes, lengths, map_cons, sum_cons, length_cons]
      apply UInt16.toNat_inj.mp
      simp only [UInt16.toNat_add, UInt16.toNat_ofNat']
      omega
    case count =>
      simp +decide only [(foldl_threshTimelocks k infos _).2.1, PolicyNodeExtInfo.initial,
        addScripts,
        counts, Script.opcodes_append, restCount, Script.opcodes_cons, Script.opcodes_nil,
        opcodes_pushInteger, ScriptItem.opcodes_op, if_true, map_cons, sum_cons,
        length_cons]
      apply UInt16.toNat_inj.mp
      simp only [UInt16.toNat_add, UInt16.toNat_ofNat', UInt16.reduceToNat]
      omega
    case last => simp +decide [addScripts]

end Thresholds

/-! ## Whole policies -/

section Policies

variable {keys : KeySource} {scratch : Nat → Int} {node : PolicyNode}
  {flags : Option MiniscriptFlags}

theorem forall₂_measures {nodes : List PolicyNode} {infos : List PolicyNodeExtInfo}
    (measures : ∀ node ∈ nodes, ∀ info, Analysed scratch node info →
      Measures info (compile keys false node))
    (analysed : List.Forall₂
      (Analysed scratch) nodes infos) :
    List.Forall₂ Measures infos (compileList keys false nodes) := by
  induction analysed with
  | nil => exact .nil
  | cons head _ ih =>
    obtain ⟨nodeMeasures, restMeasures⟩ := forall_mem_cons.mp measures
    exact .cons (nodeMeasures _ head) (ih restMeasures)

/-- The analysis of a well-typed policy describes its compiled script. -/
theorem measures_of_wellTyped (keys : KeySource) (wellTyped : WellTyped node flags)
    (analysed : Analysed scratch node info) :
    Measures info (compile keys false node) := by
  induction wellTyped generalizing info with
  | constant token =>
    cases analysed
    exact measures_constant keys token
  | withKey token key => exact measures_withKey keys token key analysed
  | withUint32 token positive small =>
    cases analysed
    exact measures_withUint32 keys token _
  | withHash256 token h =>
    cases analysed
    exact measures_withHash256 keys token h
  | withHash160 token h =>
    cases analysed
    exact measures_withHash160 keys token h
  | multisig token positive enough few => exact measures_multisig keys token _ _ analysed
  | @wrapper token script inner flags child rule ih =>
    obtain ⟨x, childAnalysed, rfl⟩ := analysed_wrapper analysed
    rw [compile]
    exact measures_wrapper token (ih childAnalysed)
  | @withScript2 token x y first second flags left right rule leftIh rightIh =>
    obtain ⟨infoX, infoY, analysedX, analysedY, rfl⟩ :=
      analysed_withScript2 analysed
    rw [compile]
    exact measures_script2 token (leftIh analysedX) (rightIh analysedY)
  | andor left middle right rule leftIh middleIh rightIh =>
    obtain ⟨infoX, infoY, _, analysedX, analysedY, analysedZ, rfl⟩ :=
      analysed_andor analysed
    rw [compile]
    exact measures_andor (leftIh analysedX) (middleIh analysedY) (rightIh analysedZ)
  | @thresh k first rest positive small children firstAllowed restAllowed ih =>
    obtain ⟨infos, childrenAnalysed, analysed⟩ := analysed_thresh analysed
    have measures : List.Forall₂ Measures infos
        (compileList keys false ((first :: rest).map (·.1))) := by
      refine forall₂_measures (fun node mem info nodeAnalysed => ?_) childrenAnalysed
      obtain ⟨child, childMem, rfl⟩ := mem_map.mp mem
      exact ih child childMem nodeAnalysed
    rw [compile]
    refine measures_thresh scratch k ?_ measures analysed
    simp [compileList]
  | sh child ih | wsh child ih | tr keyPlaceholder tree => cases analysed

/-- An expression of type `B` obeys an inherited `v:`. -/
theorem takesVerify_of_wellTyped (wellTyped : WellTyped node flags)
    (typeB : flags.map (·.type) = some .B) : takesVerify node = true := by
  induction wellTyped with
  | withKey token key => cases token <;> simp_all [keyFlags, takesVerify]
  | @wrapper token script inner flags child rule ih =>
    cases token <;> simp only [takesVerify]
    all_goals
      simp only [wrapperFlags] at rule
      split at rule
      · cases rule
      · cases rule
        cases typeB
  | @withScript2 token x y first second flags left right rule leftIh rightIh =>
    cases token <;> simp only [takesVerify]
    apply rightIh
    simp only [script2Flags] at rule
    split at rule
    · cases rule
    · split at rule
      · cases rule
      · cases rule
        exact typeB
  | sh child ih | wsh child ih | tr keyPlaceholder tree => cases typeB
  | _ => simp [takesVerify]

/-- The fragments that are analysed are allowed inside `wsh`. -/
theorem mem_fragmentWhitelist_of_analysed (analysed : Analysed scratch node info) :
    node.type ∈ fragmentWhitelist .wsh := by
  cases node with
  | constant token => exact (by cases token <;> decide : token.type ∈ fragmentWhitelist .wsh)
  | withKey token key =>
    have allowed : token = .wpkh ∨ token.type ∈ fragmentWhitelist .wsh := by
      cases token <;> decide
    rcases allowed with rfl | allowed
    · cases analysed
    · exact allowed
  | withUint32 token n => exact (by cases token <;> decide : token.type ∈ fragmentWhitelist .wsh)
  | withHash256 token h
  | withHash160 token h => exact (by cases token <;> decide : token.type ∈ fragmentWhitelist .wsh)
  | multisig token k keyPlaceholders =>
    cases token with
    | multi => exact (by decide : PolicyNodeType.multi ∈ fragmentWhitelist .wsh)
    | _ => cases analysed
  | wrapper token script =>
    exact (by cases token <;> decide : token.type ∈ fragmentWhitelist .wsh)
  | withScript2 token first second =>
    exact (by cases token <;> decide : token.type ∈ fragmentWhitelist .wsh)
  | andor first second third =>
    exact (by decide : PolicyNodeType.andor ∈ fragmentWhitelist .wsh)
  | thresh k scriptlist => exact (by decide : PolicyNodeType.thresh ∈ fragmentWhitelist .wsh)
  | sh script | wsh script | tr keyPlaceholder tree => cases analysed

/-- A node of a well-typed policy that is analysed respects the bounds of the compiler. -/
theorem withinBounds_of_wellTyped (keys : KeySource) (wellTyped : WellTyped node flags)
    (analysed : Analysed scratch node info) :
    WithinBounds keys node := by
  cases wellTyped with
  | @multisig token k placeholders positive enough few =>
    cases token with
    | multi =>
      exact ⟨positive, enough.trans few, fun _ => ⟨positive.trans enough, few⟩, nofun, nofun⟩
    | _ => cases analysed
  | @wrapper token script inner flags child rule =>
    cases token with
    | v =>
      refine takesVerify_of_wellTyped child ?_
      simp only [wrapperFlags] at rule
      split at rule
      · cases rule
      · rename_i typeB
        simpa using typeB
    | _ => trivial
  | @thresh k first rest =>
    obtain ⟨_, childrenAnalysed, analysed⟩ := analysed_thresh analysed
    have lengths := childrenAnalysed.length_eq
    have few := length_le_of_threshExtInfo analysed
    rw [← lengths] at few
    exact few.trans (by decide)
  | _ => trivial

/-- All the nodes of a well-typed policy that is analysed respect the bounds of the compiler
and are allowed inside `wsh`. -/
theorem withinBounds_nodes (keys : KeySource) (wellTyped : WellTyped node flags)
    (analysed : Analysed scratch node info) :
    ∀ inner ∈ node.nodes, WithinBounds keys inner ∧ inner.type ∈ fragmentWhitelist .wsh := by
  have inherits : ∀ parent : PolicyNode, ((∃ parentFlags, WellTyped parent parentFlags) ∧
      ∃ parentInfo, Analysed scratch parent parentInfo) →
      ∀ child ∈ parent.children, (∃ childFlags, WellTyped child childFlags) ∧
        ∃ childInfo, Analysed scratch child childInfo := by
    rintro parent ⟨⟨_, parentTyped⟩, _, parentAnalysed⟩ child mem
    exact ⟨parentTyped.child mem, computeExtInfo_child parentAnalysed mem⟩
  intro inner mem
  obtain ⟨⟨_, innerTyped⟩, _, innerAnalysed⟩ :=
    PolicyNode.forall_nodes_of_child inherits ⟨⟨flags, wellTyped⟩, info, analysed⟩ inner mem
  exact ⟨withinBounds_of_wellTyped keys innerTyped innerAnalysed,
    mem_fragmentWhitelist_of_analysed innerAnalysed⟩

end Policies

/-! ## The scripts inside `wsh` -/

/-- The script inside the `wsh` of a policy, with its kind: at the top level or inside `sh`. -/
inductive InsideWsh : PolicyNode → InternalScriptType → PolicyNode → Prop
  | native (script : PolicyNode) : InsideWsh (.wsh script) .wsh script
  | nested (script : PolicyNode) : InsideWsh (.sh (.wsh script)) .shWsh script

theorem WellTyped.insideWsh {policy script : PolicyNode} {scriptType : InternalScriptType}
    {flags : Option MiniscriptFlags} (wellTyped : WellTyped policy flags)
    (inside : InsideWsh policy scriptType script) :
    ∃ scriptFlags, WellTyped script scriptFlags := by
  cases inside with
  | native => exact wellTyped.child (mem_singleton_self _)
  | nested =>
    obtain ⟨_, wshTyped⟩ := wellTyped.child (mem_singleton_self _)
    exact wshTyped.child (mem_singleton_self _)

section Emitted

variable {σ : Type} {ctx : ScriptContext σ} {keys : KeySource} {settings : TemplateSettings}
  {template : Bytes} {policy script : PolicyNode} {scriptType : InternalScriptType}
  {scratch : Nat → Int} {info : PolicyNodeExtInfo}

/-- The static analysis of a miniscript policy that the parser accepts inside `wsh` agrees with
the script compiler at every derivation of the keys: as long as the script is below `2 ^ 16`
bytes, the size and the number of opcodes above `OP_16` are those of the emitted bytes. At the
top level the compiler does emit a script, if the policy is not nested too deeply and the keys
can be derived. -/
theorem extInfo_eq_emitted (accepted : parseDescriptorTemplate settings template = .ok policy)
    (inside : InsideWsh policy scriptType script)
    (analysed : computeMiniscriptPolicyExtInfo scratch script = some info)
    (source : DerivesFrom ctx keys) (client : σ) :
    (∀ emitted, ScriptReturns ctx scriptType script client (some emitted) →
      emitted.output.length < 2 ^ 16 →
        info.scriptSize.toNat = emitted.output.length ∧
          info.ops.count.toNat = countOpcodes 0 emitted.output) ∧
      (scriptType = .wsh → script.depth ≤ maxPolicyDepth →
        (∀ node ∈ script.nodes, ∀ key ∈ node.keyPlaceholders, Derivable ctx key) →
          ∃ emitted, ScriptReturns ctx scriptType script client (some emitted)) := by
  obtain ⟨_, policyTyped⟩ := wellTyped_of_parseDescriptorTemplate accepted
  obtain ⟨_, wellTyped⟩ := WellTyped.insideWsh policyTyped inside
  have notTap : scriptType ≠ .tapscript := by cases inside <;> nofun
  have compiled : compiledBytes keys scriptType script = (compile keys false script).bytes := by
    rw [compiledBytes, decide_eq_false notTap]
  have nodes := withinBounds_nodes keys wellTyped analysed
  have measures := measures_of_wellTyped keys wellTyped analysed
  have cases := @scriptReturns_cases σ ctx keys scriptType script client source
    (fun node mem => (nodes node mem).1) (fun isTap => absurd isTap notTap)
  constructor
  · intro emitted returns fits
    rcases cases with ⟨fails, -⟩ | ⟨-, client', succeeds⟩
    · cases fails.unique returns
    · cases succeeds.unique returns
      rw [compiled] at fits ⊢
      have countFits := lt_of_le_of_lt (compile keys false script).opcodes_le_length fits
      rw [measures.size, measures.count, countOpcodes_bytes measures.direct,
        UInt16.toNat_ofNat', UInt16.toNat_ofNat', Nat.mod_eq_of_lt fits,
        Nat.mod_eq_of_lt countFits]
      exact ⟨rfl, rfl⟩
  · intro isWsh shallow derivable
    rcases cases with ⟨-, notCompiles⟩ | ⟨-, client', succeeds⟩
    · refine absurd ⟨fun node mem => ?_, shallow, derivable⟩ notCompiles
      rw [isWsh]
      exact (nodes node mem).2
    · exact ⟨_, succeeds⟩

end Emitted

/-- `wsh(or_d(pk(@0/**),and_v(v:pk(@1/**),older(1000))))` -/
def sampleRecoveryTemplate : Bytes :=
  "wsh(or_d(pk(@0/**),and_v(v:pk(@1/**),older(1000))))".toList.map ascii

def sampleSettings : TemplateSettings := ⟨.v2, deviceLayout, 768⟩

theorem sampleRecoveryTemplate_accepted :
    parseDescriptorTemplate sampleSettings sampleRecoveryTemplate =
      .ok (.wsh sampleRecoveryPolicy) := by
  decide +kernel

theorem extInfo_eq_emitted_recovery :
    ∃ info, computeMiniscriptPolicyExtInfo (fun _ => 0) sampleRecoveryPolicy = some info ∧
      ∃ emitted, ScriptReturns (sampleContext 0) .wsh sampleRecoveryPolicy () (some emitted) ∧
        info.scriptSize.toNat = emitted.output.length ∧
          info.ops.count.toNat = countOpcodes 0 emitted.output := by
  obtain ⟨info, analysed⟩ : ∃ info,
      computeMiniscriptPolicyExtInfo (fun _ => 0) sampleRecoveryPolicy = some info := ⟨_, rfl⟩
  have run : ((getWalletInternalScriptHash (sampleContext 0) sampleRecoveryPolicy .wsh () 20).map
      fun result => result.toOption.map (·.output.length)) = some (some 77) := by decide +kernel
  simp only [Option.map_eq_some_iff] at run
  obtain ⟨result, returned, emitted, isOk, length⟩ := run
  obtain rfl : result = .ok emitted := by
    cases result <;> cases isOk
    rfl
  have returns : ScriptReturns (sampleContext 0) .wsh sampleRecoveryPolicy () (some emitted) :=
    ⟨20, returned⟩
  exact ⟨info, analysed, emitted, returns,
    (extInfo_eq_emitted sampleRecoveryTemplate_accepted (.native _) analysed
      (sampleContext_derivesFrom 0) ()).1 emitted returns (by rw [length]; decide)⟩

end LedgerSyscoin.Handler
