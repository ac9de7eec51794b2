import LedgerSyscoin.Common.Wallet.Template

/-!
# What the template parser accepts

`WellTyped` is the typing relation of descriptor templates: the flags of every node
follow from those of its children by the rule of its fragment, and the numbers are in
their ranges. Every script that the parser returns is well typed. The same induction
shows that the parser reads at least one character of each script, so that it never runs
out of fuel.
-/

namespace LedgerSyscoin.Common

open Foundation List

variable {flags : Option MiniscriptFlags} {policy : PolicyNode} {token : PolicyNodeType}

/-- The typing relation. Nodes that are not miniscript have no flags. -/
inductive WellTyped : PolicyNode → Option MiniscriptFlags → Prop
  | constant (token : ConstantToken) : WellTyped (.constant token) (some (constantFlags token))
  | withKey (token : KeyToken) (keyPlaceholder : KeyPlaceholder) :
      WellTyped (.withKey token keyPlaceholder) (keyFlags token)
  | withUint32 (token : TimelockToken) {n : UInt32} (positive : 1 ≤ n) (small : n < 0x80000000) :
      WellTyped (.withUint32 token n) (some timelockFlags)
  | withHash256 (token : Hash256Token) (h : Hash256) :
      WellTyped (.withHash256 token h) (some hashFlags)
  | withHash160 (token : Hash160Token) (h : Hash160) :
      WellTyped (.withHash160 token h) (some hashFlags)
  | multisig (token : MultisigToken) {k : Nat} {keyPlaceholders : List KeyPlaceholder}
      (positive : 1 ≤ k) (enough : k ≤ keyPlaceholders.length)
      (few : keyPlaceholders.length ≤ maxPubkeysPerMultisig) :
      WellTyped (.multisig token k keyPlaceholders) (multisigFlags token)
  | wrapper {token : WrapperToken} {script : PolicyNode} {inner flags : MiniscriptFlags}
      (child : WellTyped script (some inner)) (rule : wrapperFlags token inner = some flags) :
      WellTyped (.wrapper token script) (some flags)
  | withScript2 {token : Script2Token} {x y : PolicyNode} {first second flags : MiniscriptFlags}
      (left : WellTyped x (some first)) (right : WellTyped y (some second))
      (rule : script2Flags token first second = some flags) :
      WellTyped (.withScript2 token x y) (some flags)
  | andor {x y z : PolicyNode} {first second third flags : MiniscriptFlags}
      (left : WellTyped x (some first)) (middle : WellTyped y (some second))
      (right : WellTyped z (some third)) (rule : andorFlags first second third = some flags) :
      WellTyped (.andor x y z) (some flags)
  | thresh {k : Nat} {first : PolicyNode × MiniscriptFlags}
      {rest : List (PolicyNode × MiniscriptFlags)} (positive : 1 ≤ k) (small : k ≤ 32767)
      (children : ∀ child ∈ first :: rest, WellTyped child.1 (some child.2))
      (firstAllowed : threshChildAllowed true first.2)
      (restAllowed : ∀ child ∈ rest, threshChildAllowed false child.2) :
      WellTyped (.thresh k ((first :: rest).map (·.1)))
        (some (threshFlags ((first :: rest).map (·.2))))
  | sh {script : PolicyNode} {flags : Option MiniscriptFlags} (child : WellTyped script flags) :
      WellTyped (.sh script) none
  | wsh {script : PolicyNode} {flags : Option MiniscriptFlags} (child : WellTyped script flags) :
      WellTyped (.wsh script) none
  | tr (keyPlaceholder : KeyPlaceholder) {tree : Option PolicyTree}
      {leaves : List (PolicyNode × Option MiniscriptFlags)}
      (each : ∀ leaf ∈ leaves, WellTyped leaf.1 leaf.2)
      (all : tree.elim [] PolicyTree.leaves = leaves.map (·.1)) :
      WellTyped (.tr keyPlaceholder tree) none

theorem storedFlagsList_map {children : List (PolicyNode × MiniscriptFlags)}
    (stored : ∀ child ∈ children, storedFlags child.1 = some child.2) :
    storedFlagsList (children.map (·.1)) = some (children.map (·.2)) := by
  induction children with
  | nil => rfl
  | cons child others ih =>
    obtain ⟨childFlags, othersFlags⟩ := forall_mem_cons.mp stored
    simp [storedFlagsList, childFlags, ih othersFlags]

/-- The flags of a well-typed node are those stored in it. -/
theorem WellTyped.storedFlags_eq {node : PolicyNode}
    (wellTyped : WellTyped node flags) : storedFlags node = flags := by
  induction wellTyped with
  | @thresh k first rest positive small children firstAllowed restAllowed ih =>
    rw [storedFlags, storedFlagsList_map ih]
    rfl
  | wrapper child rule ih => simp [storedFlags, ih, rule]
  | withScript2 left right rule leftIh rightIh => simp [storedFlags, leftIh, rightIh, rule]
  | andor left middle right rule leftIh middleIh rightIh =>
    simp [storedFlags, leftIh, middleIh, rightIh, rule]
  | _ => rfl

variable {flags : Option MiniscriptFlags}

/-- The children of a well-typed node are well typed. -/
theorem WellTyped.child {node child : PolicyNode}
    (wellTyped : WellTyped node flags) (mem : child ∈ node.children) :
    ∃ childFlags, WellTyped child childFlags := by
  cases wellTyped with
  | wrapper typed rule =>
    rw [mem_singleton.mp mem]
    exact ⟨_, typed⟩
  | withScript2 left right rule =>
    rcases mem_pair.mp mem with rfl | rfl
    · exact ⟨_, left⟩
    · exact ⟨_, right⟩
  | andor left middle right rule =>
    rcases mem_cons.mp mem with rfl | mem
    · exact ⟨_, left⟩
    · rcases mem_pair.mp mem with rfl | rfl
      · exact ⟨_, middle⟩
      · exact ⟨_, right⟩
  | thresh positive small children firstAllowed restAllowed =>
    obtain ⟨typed, typedMem, rfl⟩ := mem_map.mp mem
    exact ⟨_, children typed typedMem⟩
  | sh typed | wsh typed =>
    rw [mem_singleton.mp mem]
    exact ⟨_, typed⟩
  | _ => cases mem

/-- The scripts in the tree of a well-typed `tr` are well typed. -/
theorem WellTyped.leaf {keyPlaceholder : KeyPlaceholder} {tree : PolicyTree}
    (wellTyped : WellTyped (.tr keyPlaceholder (some tree)) flags)
    {script : PolicyNode} (mem : script ∈ tree.leaves) :
    ∃ leafFlags, WellTyped script leafFlags := by
  cases wellTyped with
  | tr _ each all =>
    rw [Option.elim_some] at all
    rw [all] at mem
    obtain ⟨leaf, leafMem, rfl⟩ := mem_map.mp mem
    exact ⟨leaf.2, each leaf leafMem⟩

/-- All the nodes of a well-typed policy are well typed. -/
theorem WellTyped.nodes (wellTyped : WellTyped policy flags) :
    ∀ node ∈ policy.nodes, ∃ nodeFlags, WellTyped node nodeFlags :=
  PolicyNode.forall_nodes_of_child (fun _ ⟨_, typed⟩ _ mem => typed.child mem) ⟨flags, wellTyped⟩

/-! ## The elementary steps -/

theorem length_of_readPolicyNodeType {input rest : Bytes}
    (read : readPolicyNodeType input = some (token, rest)) :
    rest.length < input.length ∧ Passes input rest := by
  simp only [readPolicyNodeType, parseToken, Option.map_map, Option.map_eq_some_iff,
    Function.comp_apply, Prod.mk.injEq] at read
  obtain ⟨known, found, -, rfl⟩ := read
  have name : known.2.map ascii = (readToken maxTokenLength input).1 := by
    simpa using find?_some found
  have nonempty : 0 < (readToken maxTokenLength input).1.length := by
    rw [← name, length_map]
    exact length_pos_iff.mpr (knownTokens_ne_nil known (mem_of_find?_eq_some found))
  obtain ⟨isInput, absent⟩ := readToken_append maxTokenLength input
  have length := congrArg List.length isInput
  rw [length_append] at length
  exact ⟨by omega, _, isInput, absent⟩

theorem passes_leadingWrappers (input : Bytes) : Passes input (leadingWrappers input).2 := by
  induction input with
  | nil => exact .refl []
  | cons c tail ih =>
    simp only [leadingWrappers]
    split
    · rename_i isWrapper
      exact .cons (fun isAt => by rw [isAt] at isWrapper; cases isWrapper) ih
    · exact .refl _

theorem passes_readWrappers (input : Bytes) : Passes input (readWrappers input).2 := by
  simp only [readWrappers]
  split
  · rename_i colon
    exact (passes_leadingWrappers input).trans (passes_of_consumeCharacter (by decide) colon)
  · exact .refl _

section Steps

variable {α : Type} {settings : TemplateSettings} {state : TemplateState}
  {fails : TemplateError → Prop} {post : Unit → TemplateState → Prop} {expected : Char}
  {wrappers : List WrapperToken}

theorem ensures_bufferAlign (next : ∀ after, after.input = state.input → post () after) :
    Ensures (bufferAlign settings) state post fails := by
  simp only [bufferAlign, ensures_bind, ensures_get, ensures_ite, ensures_set, ensures_pure]
  exact ⟨fun _ => next _ rfl, fun _ => next state rfl⟩

variable (rejected : fails .rejected)

include rejected

theorem ensures_ensure {condition : Bool} (holds : condition → post () state) :
    Ensures (ensure condition) state post fails := by
  cases condition with
  | true => exact holds rfl
  | false => exact rejected

theorem ensures_readInput {reader : Bytes → Option (α × Bytes)} {post : α → TemplateState → Prop}
    (next : ∀ value after, reader state.input = some (value, after.input) → post value after) :
    Ensures (readInput reader) state post fails := by
  rw [Ensures, readInput]
  cases found : reader state.input with
  | none => exact rejected
  | some result => exact next result.1 { state with input := result.2 } found

theorem ensures_expectCharacter (other : ascii expected ≠ ascii '@')
    (next : ∀ after, after.input.length < state.input.length →
      keysIn state.input = keysIn after.input → post () after) :
    Ensures (expectCharacter expected) state post fails := by
  refine ensures_readInput rejected fun value after found => ?_
  simp only [Option.map_eq_some_iff, Prod.mk.injEq, true_and, exists_eq_right] at found
  exact next after (length_of_consumeCharacter found)
    (passes_of_consumeCharacter other found).keysIn_eq

theorem ensures_acceptCharacter {post : Bool → TemplateState → Prop}
    (other : ascii expected ≠ ascii '@')
    (skipped : ∀ after, after.input.length < state.input.length →
      keysIn state.input = keysIn after.input → post true after)
    (absent : ∀ after, after.input = state.input → post false after) :
    Ensures (acceptCharacter expected) state post fails := by
  refine ensures_readInput rejected fun value after found => ?_
  cases consumed : consumeCharacter expected state.input with
  | none =>
    simp only [consumed, Option.some.injEq, Prod.mk.injEq] at found
    obtain ⟨rfl, same⟩ := found
    exact absent after same.symm
  | some rest =>
    simp only [consumed, Option.some.injEq, Prod.mk.injEq] at found
    obtain ⟨rfl, rfl⟩ := found
    exact skipped after (length_of_consumeCharacter consumed)
      (passes_of_consumeCharacter other consumed).keysIn_eq

theorem ensures_bufferAlloc {size : Nat}
    (next : ∀ after, after.input = state.input → post () after) :
    Ensures (bufferAlloc settings size) state post fails := by
  simp only [bufferAlloc, ensures_bind, ensures_get, ensures_ite, ensures_set, ensures_throw]
  exact ⟨fun _ => next _ rfl, fun _ => rejected⟩

theorem ensures_miniscriptFlags {script : ParsedScript}
    {post : MiniscriptFlags → TemplateState → Prop}
    (next : ∀ flags, script.flags = some flags → post flags state) :
    Ensures (miniscriptFlags script) state post fails := by
  unfold miniscriptFlags
  cases found : script.flags with
  | none => exact rejected
  | some flags => exact next flags found

theorem ensures_typed {post : MiniscriptFlags → TemplateState → Prop}
    (next : ∀ result, flags = some result → post result state) :
    Ensures (typed flags) state post fails := by
  cases flags with
  | none => exact rejected
  | some result => exact next result rfl

theorem ensures_parseThreshold {post : Nat → TemplateState → Prop}
    (next : ∀ k after, k ≤ 32767 → Passes state.input after.input → post k after) :
    Ensures parseThreshold state post fails := by
  rw [parseThreshold, ensures_bind]
  refine ensures_readInput rejected fun k after read => ?_
  rw [ensures_bind]
  refine ensures_ensure rejected fun small => ?_
  rw [decide_eq_true_eq, UInt32.le_iff_toNat_le] at small
  exact next k.toNat after small (passes_of_parseUnsignedDecimal read)

theorem ensures_allocateWrappers (next : ∀ after, after.input = state.input → post () after) :
    Ensures (allocateWrappers settings wrappers) state post fails := by
  induction wrappers generalizing state with
  | nil => exact next state rfl
  | cons token inner ih =>
    rw [allocateWrappers, ensures_bind]
    refine ensures_bufferAlloc rejected fun allocated same => ?_
    exact ih fun after sameAfter => next after (sameAfter.trans same)

theorem ensures_parseWrappers {post : List WrapperToken → TemplateState → Prop}
    (next : ∀ wrappers after, Passes state.input after.input → post wrappers after) :
    Ensures (parseWrappers settings) state post fails := by
  rw [parseWrappers, ensures_bind]
  refine ensures_readInput rejected fun wrappers read found => ?_
  have passes := passes_readWrappers state.input
  rw [Option.some.injEq] at found
  rw [found] at passes
  rw [ensures_bind]
  exact ensures_allocateWrappers rejected fun after same => next wrappers after (same ▸ passes)

theorem ensures_parseOptionalWrappers {place : ScriptPlace}
    {post : List WrapperToken → TemplateState → Prop}
    (next : ∀ wrappers after, Passes state.input after.input → post wrappers after) :
    Ensures (parseOptionalWrappers settings place) state post fails := by
  rw [parseOptionalWrappers, ensures_ite]
  exact ⟨fun _ => ensures_parseWrappers rejected next, fun _ => next [] state (.refl _)⟩

theorem ensures_expectParenthesis {parenthesis : Char} (other : ascii parenthesis ≠ ascii '@')
    (next : ∀ after, after.input.length ≤ state.input.length →
      keysIn state.input = keysIn after.input → post () after) :
    Ensures (expectParenthesis token parenthesis) state post fails := by
  rw [expectParenthesis, ensures_ite]
  exact ⟨fun _ => ensures_expectCharacter rejected other fun after shorter => next after shorter.le,
    fun _ => next state le_rfl rfl⟩

/-- Wrappers keep a script well typed. -/
theorem ensures_applyWrappers {script : ParsedScript}
    {post : ParsedScript → TemplateState → Prop} (wellTyped : WellTyped script.node script.flags)
    (next : ∀ wrapped, WellTyped wrapped.node wrapped.flags →
      templateKeys wrapped.node = templateKeys script.node → post wrapped state) :
    Ensures (applyWrappers script wrappers) state post fails := by
  induction wrappers generalizing post with
  | nil => exact next script wellTyped rfl
  | cons token inner ih =>
    simp only [applyWrappers, ensures_bind]
    refine ih fun wrapped innerTyped sameKeys => ?_
    refine ensures_miniscriptFlags rejected fun innerFlags innerFound => ?_
    refine ensures_typed rejected fun flags rule => ?_
    exact next _ (.wrapper (innerFound ▸ innerTyped) rule) sameKeys

end Steps

/-! ## The fragments -/

section Fragments

variable {settings : TemplateSettings} {script : Nat → ScriptPlace → TemplateParser ParsedScript}
  {tree : Nat → TemplateParser PolicyTree} {state : TemplateState} {fails : TemplateError → Prop}
  {bound fuel depth : Nat} {version : WalletPolicyVersion} {weaker : TemplateError → Prop}
  {place : ScriptPlace}

/-- The parser of the child scripts, on inputs of less than `bound` bytes: what it returns
is well typed, it consumes some input with the placeholders of the script, at the top level all
of it, and its errors satisfy `fails`. -/
def ParsesScripts (version : WalletPolicyVersion)
    (script : Nat → ScriptPlace → TemplateParser ParsedScript) (bound : Nat)
    (fails : TemplateError → Prop) : Prop :=
  ∀ depth place state, state.input.length < bound →
    Ensures (script depth place) state
      (fun parsed next => WellTyped parsed.node parsed.flags ∧
        next.input.length < state.input.length ∧
        keysIn state.input version = templateKeys parsed.node ++ keysIn next.input version ∧
        (depth = 0 → next.input = [])) fails

/-- The scripts of a tree are well typed. -/
def TypedLeaves (scripts : PolicyTree) : Prop :=
  ∃ leaves : List (PolicyNode × Option MiniscriptFlags),
    (∀ leaf ∈ leaves, WellTyped leaf.1 leaf.2) ∧ scripts.leaves = leaves.map (·.1)

theorem TypedLeaves.branch {left right : PolicyTree} (leftTyped : TypedLeaves left)
    (rightTyped : TypedLeaves right) : TypedLeaves (.branch left right) := by
  obtain ⟨leftLeaves, leftEach, leftAll⟩ := leftTyped
  obtain ⟨rightLeaves, rightEach, rightAll⟩ := rightTyped
  refine ⟨leftLeaves ++ rightLeaves, forall_mem_append.mpr ⟨leftEach, rightEach⟩, ?_⟩
  rw [PolicyTree.leaves, leftAll, rightAll, map_append]

/-- The parser of script trees, on inputs of less than `bound` bytes. -/
def ParsesTrees (version : WalletPolicyVersion) (tree : Nat → TemplateParser PolicyTree)
    (bound : Nat) (fails : TemplateError → Prop) : Prop :=
  ∀ depth state, state.input.length < bound →
    Ensures (tree depth) state
      (fun scripts next => TypedLeaves scripts ∧ next.input.length < state.input.length ∧
        keysIn state.input version = templateKeysOfTree scripts ++ keysIn next.input version) fails

theorem ParsesScripts.mono (scripts : ParsesScripts version script bound fails)
    (weaken : ∀ error, fails error → weaker error) : ParsesScripts version script bound weaker :=
  fun depth place state within =>
    (scripts depth place state within).mono (fun _ _ post => post) weaken

theorem ParsesTrees.mono (trees : ParsesTrees version tree bound fails)
    (weaken : ∀ error, fails error → weaker error) : ParsesTrees version tree bound weaker :=
  fun depth state within => (trees depth state within).mono (fun _ _ post => post) weaken

/-- The result of a fragment parser that started on `input`. -/
def FragmentResult (version : WalletPolicyVersion) (input : Bytes) (parsed : ParsedScript)
    (after : TemplateState) : Prop :=
  WellTyped parsed.node parsed.flags ∧ after.input.length ≤ input.length ∧
    keysIn input version = templateKeys parsed.node ++ keysIn after.input version

theorem ensures_parseChildScript {post : ParsedScript → TemplateState → Prop}
    (scripts : ParsesScripts version script bound fails) (within : state.input.length < bound)
    (next : ∀ parsed after, WellTyped parsed.node parsed.flags →
      after.input.length < state.input.length →
      keysIn state.input version = templateKeys parsed.node ++ keysIn after.input version →
        post parsed after) :
    Ensures (parseChildScript settings script depth place) state post fails := by
  rw [parseChildScript, ensures_bind]
  refine ensures_bufferAlign fun aligned same => ?_
  rw [← same] at within next
  refine (scripts _ _ aligned within).mono ?_ (fun _ failed => failed)
  rintro parsed after ⟨wellTyped, consumed, keys, -⟩
  exact next parsed after wellTyped consumed keys

variable (rejected : fails .rejected)

section Leaves

include rejected

theorem ensures_placeholder {post : KeyPlaceholder → TemplateState → Prop}
    (next : ∀ key after, after.input.length < state.input.length →
      keysIn state.input version = key :: keysIn after.input version → post key after) :
    Ensures (readInput (parsePlaceholder version)) state post fails := by
  refine ensures_readInput rejected fun key after read => ?_
  obtain ⟨_, isInput, passes⟩ := passes_of_parsePlaceholder read
  refine next key after ?_ (keysIn_of_parsePlaceholder read)
  rw [isInput]
  exact Nat.lt_succ_of_le passes.length_le

theorem ensures_parseConstant (token : ConstantToken) : Ensures (parseConstant settings token) state
    (FragmentResult settings.version state.input) fails := by
  rw [parseConstant, ensures_bind]
  refine ensures_bufferAlloc rejected fun after same => ?_
  exact ⟨.constant token, by rw [same], by rw [same]; rfl⟩

theorem ensures_parseHash256 (token : Hash256Token) : Ensures (parseHash256 settings token) state
    (FragmentResult settings.version state.input) fails := by
  simp only [parseHash256, ensures_bind]
  refine ensures_bufferAlloc rejected fun allocated same => ?_
  refine ensures_readInput rejected fun hash after read => ?_
  have passes := (rest_of_bufferReadHexHash read).2
  rw [← same]
  exact ⟨.withHash256 token hash, passes.length_le, congrFun passes.keysIn_eq _⟩

theorem ensures_parseHash160 (token : Hash160Token) : Ensures (parseHash160 settings token) state
    (FragmentResult settings.version state.input) fails := by
  simp only [parseHash160, ensures_bind]
  refine ensures_bufferAlloc rejected fun allocated same => ?_
  refine ensures_readInput rejected fun hash after read => ?_
  have passes := (rest_of_bufferReadHexHash read).2
  rw [← same]
  exact ⟨.withHash160 token hash, passes.length_le, congrFun passes.keysIn_eq _⟩

theorem ensures_parseWithKey (token : KeyToken) :
    Ensures (parseWithKey settings depth place token) state
      (FragmentResult settings.version state.input) fails := by
  simp only [parseWithKey, ensures_bind]
  refine ensures_bufferAlloc rejected fun allocated same => ?_
  refine ensures_bufferAlloc rejected fun both sameBoth => ?_
  refine ensures_ensure rejected fun _ => ?_
  rw [← same, ← sameBoth]
  exact ensures_placeholder rejected fun key after shorter keys =>
    ⟨.withKey token key, shorter.le, keys⟩

theorem ensures_parseWithUint32 (token : TimelockToken) :
    Ensures (parseWithUint32 settings token) state
      (FragmentResult settings.version state.input) fails := by
  simp only [parseWithUint32, ensures_bind]
  refine ensures_bufferAlloc rejected fun allocated same => ?_
  refine ensures_readInput rejected fun n after read => ?_
  refine ensures_ensure rejected fun bounds => ?_
  rw [Bool.and_eq_true, decide_eq_true_eq, decide_eq_true_eq] at bounds
  have passes := passes_of_parseUnsignedDecimal read
  rw [← same]
  exact ⟨.withUint32 token bounds.1 bounds.2, passes.length_le, congrFun passes.keysIn_eq _⟩

theorem ensures_parseKeyPlaceholders (enough : state.input.length < fuel) :
    Ensures (parseKeyPlaceholders settings fuel) state
      (fun keys after => after.input.length ≤ state.input.length ∧
        keysIn state.input settings.version = keys ++ keysIn after.input settings.version)
      fails := by
  induction fuel generalizing state with
  | zero => omega
  | succ fuel ih =>
    simp only [parseKeyPlaceholders, peekCharacter, ensures_bind, ensures_get, ensures_pure,
      ensures_ite]
    refine ⟨fun _ => ⟨le_rfl, rfl⟩, fun _ => ?_⟩
    refine ensures_expectCharacter rejected (by decide) fun comma shorter sameComma => ?_
    refine ensures_bufferAlloc rejected fun allocated same => ?_
    rw [← same] at shorter sameComma
    refine ensures_placeholder rejected fun key after consumed keys => ?_
    refine (ih (by omega)).mono (fun others last later => ?_) (fun _ failed => failed)
    exact ⟨by omega, by rw [sameComma, keys, later.2, cons_append]⟩

theorem ensures_parseMultisig (token : MultisigToken) :
    Ensures (parseMultisig settings depth place token) state
      (FragmentResult settings.version state.input) fails := by
  simp only [parseMultisig, ensures_bind, ensures_get]
  refine ensures_bufferAlloc rejected fun allocated same => ?_
  refine ensures_ensure rejected fun _ => ?_
  refine ensures_parseThreshold rejected fun k afterK small passes => ?_
  refine ensures_bufferAlign fun aligned sameAligned => ?_
  rw [same, ← sameAligned] at passes
  refine (ensures_parseKeyPlaceholders rejected (Nat.lt_succ_self _)).mono
    (fun keyPlaceholders after consumed => ?_) (fun _ failed => failed)
  refine ensures_ensure rejected fun bounds => ?_
  simp only [Bool.and_eq_true, decide_eq_true_eq] at bounds
  exact ⟨.multisig token bounds.1.1 bounds.1.2 bounds.2, consumed.1.trans passes.length_le,
    (congrFun passes.keysIn_eq _).trans consumed.2⟩

end Leaves

variable (scripts : ParsesScripts settings.version script bound fails)
  (trees : ParsesTrees settings.version tree bound fails) (within : state.input.length < bound)

section Children

include rejected scripts within

theorem ensures_parseThreshChildren {first : Bool} (enough : state.input.length < fuel) :
    Ensures (parseThreshChildren settings script depth place fuel first) state
      (fun children after => after.input.length ≤ state.input.length ∧
        (∃ head rest, children = head :: rest ∧ threshChildAllowed first head.2 ∧
          (∀ child ∈ rest, threshChildAllowed false child.2) ∧
          ∀ child ∈ children, WellTyped child.1 (some child.2)) ∧
        keysIn state.input settings.version = templateKeysOfList (children.map (·.1)) ++
          keysIn after.input settings.version) fails := by
  induction fuel generalizing state first with
  | zero => omega
  | succ fuel ih =>
    simp only [parseThreshChildren, ensures_bind]
    refine ensures_parseChildScript scripts within fun child after childTyped consumed keys => ?_
    refine ensures_miniscriptFlags rejected fun flags found => ?_
    rw [found] at childTyped
    refine ensures_ensure rejected fun allowed => ?_
    refine ensures_acceptCharacter rejected (by decide) (fun comma shorter sameComma => ?_)
      (fun final same => ?_)
    · simp only [if_true, ensures_bind]
      refine ensures_bufferAlloc rejected fun allocated same => ?_
      rw [← same] at shorter sameComma
      refine (ih (by omega) (by omega)).mono ?_ (fun _ failed => failed)
      rintro children _
        ⟨lastShorter, ⟨head, others, rfl, headAllowed, othersAllowed, typed⟩, later⟩
      refine ⟨by omega, ⟨(child.node, flags), head :: others, rfl, allowed, ?_, ?_⟩, ?_⟩
      · exact forall_mem_cons.mpr ⟨headAllowed, othersAllowed⟩
      · exact forall_mem_cons.mpr ⟨childTyped, typed⟩
      · rw [keys, sameComma, later, ← append_assoc]
        rfl
    · refine ⟨same ▸ consumed.le, ⟨(child.node, flags), [], rfl, allowed, ?_, ?_⟩, ?_⟩
      · exact fun _ mem => absurd mem not_mem_nil
      · exact forall_mem_singleton.mpr childTyped
      · simp [keys, same, templateKeysOfList]

theorem ensures_parseThresh : Ensures (parseThresh settings script depth place) state
    (FragmentResult settings.version state.input) fails := by
  simp only [parseThresh, ensures_bind, ensures_get]
  refine ensures_bufferAlloc rejected fun allocated same => ?_
  rw [← same] at within ⊢
  refine ensures_parseThreshold rejected fun k afterK small passes => ?_
  have shortK := passes.length_le
  refine ensures_expectCharacter rejected (by decide) fun comma shorter sameComma => ?_
  refine ensures_ensure rejected fun positive => ?_
  refine ensures_bufferAlloc rejected fun listed sameListed => ?_
  rw [← sameListed] at shorter sameComma
  refine (ensures_parseThreshChildren rejected scripts (by omega) (Nat.lt_succ_self _)).mono ?_
    (fun _ failed => failed)
  rintro _ _ ⟨_, ⟨_, _, rfl, headAllowed, restAllowed, wellTyped⟩, keys⟩
  refine ⟨.thresh ?_ small wellTyped headAllowed restAllowed, by omega, ?_⟩
  · simpa using positive
  · rw [passes.keysIn_eq, sameComma, keys]
    rfl

theorem ensures_parseSh : Ensures (parseSh settings script depth place) state
    (FragmentResult settings.version state.input) fails := by
  simp only [parseSh, ensures_bind]
  refine ensures_ensure rejected fun _ => ?_
  refine ensures_bufferAlloc rejected fun allocated same => ?_
  refine ensures_bufferAlign fun aligned sameAligned => ?_
  rw [← same, ← sameAligned] at within ⊢
  refine (scripts _ _ _ within).mono ?_ (fun _ failed => failed)
  rintro _ _ ⟨wellTyped, consumed, keys, -⟩
  exact ⟨.sh wellTyped, consumed.le, keys⟩

theorem ensures_parseWsh : Ensures (parseWsh settings script depth place) state
    (FragmentResult settings.version state.input) fails := by
  simp only [parseWsh, ensures_bind]
  refine ensures_ensure rejected fun _ => ?_
  refine ensures_bufferAlloc rejected fun allocated same => ?_
  refine ensures_bufferAlign fun aligned sameAligned => ?_
  rw [← same, ← sameAligned] at within ⊢
  refine (scripts _ _ _ within).mono ?_ (fun _ failed => failed)
  rintro _ _ ⟨wellTyped, consumed, keys, -⟩
  exact ⟨.wsh wellTyped, consumed.le, keys⟩

theorem ensures_parseAndor : Ensures (parseAndor settings script depth place) state
    (FragmentResult settings.version state.input) fails := by
  simp only [parseAndor, ensures_bind]
  refine ensures_bufferAlloc rejected fun allocated same => ?_
  rw [← same] at within ⊢
  refine ensures_parseChildScript scripts within fun x afterX typedX shortX keysX => ?_
  refine ensures_expectCharacter rejected (by decide) fun commaX _ sameX => ?_
  refine ensures_parseChildScript scripts (by omega) fun y afterY typedY shortY keysY => ?_
  refine ensures_expectCharacter rejected (by decide) fun commaY _ sameY => ?_
  refine ensures_parseChildScript scripts (by omega) fun z afterZ typedZ shortZ keysZ => ?_
  refine ensures_miniscriptFlags rejected fun flagsX foundX => ?_
  refine ensures_miniscriptFlags rejected fun flagsY foundY => ?_
  refine ensures_miniscriptFlags rejected fun flagsZ foundZ => ?_
  refine ensures_typed rejected fun flags rule => ?_
  refine ⟨.andor (foundX ▸ typedX) (foundY ▸ typedY) (foundZ ▸ typedZ) rule, by omega, ?_⟩
  simp [keysX, sameX, keysY, sameY, keysZ, templateKeys]

theorem ensures_parseScript2 (token : Script2Token) :
    Ensures (parseScript2 settings script depth place token) state
      (FragmentResult settings.version state.input) fails := by
  simp only [parseScript2, ensures_bind]
  refine ensures_bufferAlloc rejected fun allocated same => ?_
  rw [← same] at within ⊢
  refine ensures_parseChildScript scripts within fun x afterX typedX shortX keysX => ?_
  refine ensures_expectCharacter rejected (by decide) fun commaX _ sameX => ?_
  refine ensures_parseChildScript scripts (by omega) fun y afterY typedY shortY keysY => ?_
  refine ensures_miniscriptFlags rejected fun flagsX foundX => ?_
  refine ensures_miniscriptFlags rejected fun flagsY foundY => ?_
  refine ensures_typed rejected fun flags rule => ?_
  refine ⟨.withScript2 (foundX ▸ typedX) (foundY ▸ typedY) rule, by omega, ?_⟩
  simp [keysX, sameX, keysY, templateKeys]

end Children

include rejected trees

include within in
theorem ensures_parseTr : Ensures (parseTr settings tree depth) state
    (FragmentResult settings.version state.input) fails := by
  simp only [parseTr, ensures_bind]
  refine ensures_ensure rejected fun _ => ?_
  refine ensures_bufferAlloc rejected fun allocated same => ?_
  refine ensures_bufferAlloc rejected fun both sameBoth => ?_
  rw [← same, ← sameBoth] at within ⊢
  refine ensures_placeholder rejected fun keyPlaceholder key consumed keys => ?_
  refine ensures_acceptCharacter rejected (by decide) (fun comma shorter sameComma => ?_)
    (fun final sameFinal => ?_)
  · simp only [if_true, ensures_bind]
    refine ensures_bufferAlign fun aligned sameAligned => ?_
    rw [← sameAligned] at shorter sameComma
    refine (trees _ _ (by omega)).mono ?_ (fun _ failed => failed)
    rintro _ _ ⟨⟨_, each, all⟩, _, treeKeys⟩
    refine ⟨.tr keyPlaceholder each all, by omega, ?_⟩
    rw [keys, sameComma, treeKeys]
    rfl
  · simp only [Bool.false_eq_true, if_false, peekCharacter, ensures_bind, ensures_get, ensures_pure]
    refine ensures_ensure rejected fun _ => ?_
    rw [← sameFinal] at consumed keys
    exact ⟨@WellTyped.tr keyPlaceholder none [] (forall_mem_nil _) rfl, consumed.le, keys⟩

include scripts

include within in
theorem ensures_parseFragment (token : PolicyNodeType) :
    Ensures (parseFragment settings script tree depth place token) state
      (FragmentResult settings.version state.input) fails := by
  cases token
  case zero | one => exact ensures_parseConstant rejected _
  case sh => exact ensures_parseSh rejected scripts within
  case wsh => exact ensures_parseWsh rejected scripts within
  case sha256 | hash256 => exact ensures_parseHash256 rejected _
  case ripemd160 | hash160 => exact ensures_parseHash160 rejected _
  case andor => exact ensures_parseAndor rejected scripts within
  case andV | andB | andN | orB | orC | orD | orI =>
      exact ensures_parseScript2 rejected scripts within _
  case thresh => exact ensures_parseThresh rejected scripts within
  case pk | pkh | pkK | pkH | wpkh => exact ensures_parseWithKey rejected _
  case tr => exact ensures_parseTr rejected trees within
  case older | after => exact ensures_parseWithUint32 rejected _
  case multi | multiA | sortedmulti | sortedmultiA => exact ensures_parseMultisig rejected _
  all_goals exact rejected

/-- One level of the recursion, for scripts. The name of the fragment is not empty, so the
children start on a shorter input. -/
theorem ensures_parseScriptWith (within : state.input.length ≤ bound) :
    Ensures (parseScriptWith settings script tree depth place) state
      (fun parsed after => WellTyped parsed.node parsed.flags ∧
        after.input.length < state.input.length ∧ keysIn state.input settings.version =
          templateKeys parsed.node ++ keysIn after.input settings.version ∧
        (depth = 0 → after.input = [])) fails := by
  simp only [parseScriptWith, ensures_bind, ensures_get]
  refine ensures_parseOptionalWrappers rejected fun wrappers start passes => ?_
  refine ensures_readInput rejected fun token named read => ?_
  obtain ⟨_, passesName⟩ := length_of_readPolicyNodeType read
  have shortStart := passes.length_le
  refine ensures_ensure rejected fun _ => ?_
  refine ensures_expectParenthesis rejected (by decide) fun opened _ sameOpened => ?_
  refine (ensures_parseFragment rejected scripts trees (by omega) token).mono ?_
    (fun _ failed => failed)
  rintro parsed after ⟨wellTyped, _, keys⟩
  refine ensures_expectParenthesis rejected (by decide) fun closed _ sameClosed => ?_
  refine ensures_ensure rejected fun ends => ?_
  refine ensures_applyWrappers rejected wellTyped fun wrapped wrappedTyped sameKeys => ?_
  refine ⟨wrappedTyped, by omega, ?_, fun atTop => by simpa [atTop] using ends⟩
  rw [passes.keysIn_eq, passesName.keysIn_eq, sameOpened, keys, sameClosed, sameKeys]

omit scripts

/-- One level of the recursion, for script trees. -/
theorem ensures_parseTreeWith (scripts : ParsesScripts settings.version script (bound + 1) fails)
    (within : state.input.length ≤ bound) :
    Ensures (parseTreeWith settings script tree depth) state
      (fun scripts after => TypedLeaves scripts ∧ after.input.length < state.input.length ∧
        keysIn state.input settings.version =
          templateKeysOfTree scripts ++ keysIn after.input settings.version) fails := by
  simp only [parseTreeWith, peekCharacter, ensures_bind, ensures_get, ensures_pure]
  refine ensures_ensure rejected fun _ => ?_
  refine ensures_ensure rejected fun _ => ?_
  refine ensures_bufferAlloc rejected fun allocated same => ?_
  rw [← same] at within ⊢
  refine ensures_ensure rejected fun _ => ?_
  refine ensures_acceptCharacter rejected (by decide) (fun brace shorter sameBrace => ?_)
    (fun start sameStart => ?_)
  · simp only [if_true, ensures_bind]
    refine ensures_bufferAlign fun aligned sameAligned => ?_
    rw [← sameAligned] at shorter sameBrace
    refine (trees _ _ (by omega)).mono ?_ (fun _ failed => failed)
    rintro _ _ ⟨leftTyped, _, leftKeys⟩
    refine ensures_expectCharacter rejected (by decide) fun comma shortComma sameComma => ?_
    refine ensures_bufferAlign fun alignedRight sameRight => ?_
    rw [← sameRight] at shortComma sameComma
    refine (trees _ _ (by omega)).mono ?_ (fun _ failed => failed)
    rintro _ _ ⟨rightTyped, _, rightKeys⟩
    refine ensures_expectCharacter rejected (by decide) fun closed shortClosed sameClosed => ?_
    refine ⟨leftTyped.branch rightTyped, by omega, ?_⟩
    simp [sameBrace, leftKeys, sameComma, rightKeys, sameClosed, templateKeysOfTree]
  · simp only [Bool.false_eq_true, if_false, ensures_bind]
    refine ensures_bufferAlign fun aligned sameAligned => ?_
    rw [← sameStart, ← sameAligned] at within ⊢
    refine (scripts _ _ _ (Nat.lt_succ_of_le within)).mono ?_ (fun _ failed => failed)
    rintro leaf after ⟨leafTyped, shorter, keys, -⟩
    exact ⟨⟨[(leaf.node, leaf.flags)], forall_mem_singleton.mpr leafTyped, rfl⟩, shorter, keys⟩

end Fragments

/-! ## Whole templates -/

/-- The errors of a run with enough fuel. -/
def RejectsWith (enough : Prop) (error : TemplateError) : Prop := enough → error = .rejected

/-- Both parsers, by induction on the fuel: scripts need one more than twice the length of
the input, script trees two more. -/
theorem parses_of_fuel (settings : TemplateSettings) (fuel : Nat) :
    (∀ bound, ParsesScripts settings.version (parseScript settings fuel) bound
      (RejectsWith (2 * bound ≤ fuel + 1))) ∧
    ∀ bound, ParsesTrees settings.version (parseTree settings fuel) bound
      (RejectsWith (2 * bound ≤ fuel)) := by
  induction fuel with
  | zero =>
    refine ⟨fun bound depth place state within => ?_, fun bound depth state within => ?_⟩
    · rw [parseScript, ensures_throw]
      intro enough
      omega
    · rw [parseTree, ensures_throw]
      intro enough
      omega
  | succ fuel ih =>
    obtain ⟨scripts, trees⟩ := ih
    refine ⟨fun bound depth place state within => ?_, fun bound depth state within => ?_⟩
    · obtain ⟨bound, rfl⟩ := Nat.exists_eq_succ_of_ne_zero (Nat.ne_zero_of_lt within)
      exact ensures_parseScriptWith (fun _ => rfl)
        ((scripts bound).mono fun _ failed enough => failed (by omega))
        ((trees bound).mono fun _ failed enough => failed (by omega))
        (Nat.le_of_lt_succ within)
    · obtain ⟨bound, rfl⟩ := Nat.exists_eq_succ_of_ne_zero (Nat.ne_zero_of_lt within)
      exact ensures_parseTreeWith (fun _ => rfl)
        ((trees bound).mono fun _ failed enough => failed (by omega))
        ((scripts (bound + 1)).mono fun _ failed enough => failed (by omega))
        (Nat.le_of_lt_succ within)

section Templates

variable {settings : TemplateSettings} {template : Bytes}

/-- The parser accepts or rejects every template. -/
theorem parseDescriptorTemplate_ne_outOfFuel (settings : TemplateSettings) (template : Bytes) :
    parseDescriptorTemplate settings template ≠ .error .outOfFuel := by
  have ensures := (parses_of_fuel settings (2 * template.length + 1)).1 (template.length + 1) 0
    ⟨false, false, false⟩ ⟨template, 0⟩ (Nat.lt_succ_self _)
  rw [parseDescriptorTemplate]
  cases run : parseScript settings (2 * template.length + 1) 0 ⟨false, false, false⟩
      ⟨template, 0⟩ with
  | ok result => simp [Except.map]
  | error error =>
    have rejected := ensures.of_error run (by omega)
    simp [Except.map, rejected]

/-- What the parser accepts is well typed, and its placeholders are those of the text. -/
theorem parseDescriptorTemplate_sound
    (accepted : parseDescriptorTemplate settings template = .ok policy) :
    (∃ flags, WellTyped policy flags) ∧
      templateKeys policy = keysIn template settings.version := by
  have ensures := (parses_of_fuel settings (2 * template.length + 1)).1 (template.length + 1) 0
    ⟨false, false, false⟩ ⟨template, 0⟩ (Nat.lt_succ_self _)
  rw [parseDescriptorTemplate] at accepted
  cases run : parseScript settings (2 * template.length + 1) 0 ⟨false, false, false⟩
      ⟨template, 0⟩ with
  | ok result =>
    rw [run] at accepted
    cases accepted
    obtain ⟨wellTyped, -, keys, ends⟩ := ensures.of_ok run
    refine ⟨⟨result.1.flags, wellTyped⟩, ?_⟩
    rw [keys, ends rfl]
    exact (append_nil _).symm
  | error error =>
    rw [run] at accepted
    cases accepted

theorem wellTyped_of_parseDescriptorTemplate
    (accepted : parseDescriptorTemplate settings template = .ok policy) :
    ∃ flags, WellTyped policy flags :=
  (parseDescriptorTemplate_sound accepted).1

end Templates

end LedgerSyscoin.Common
