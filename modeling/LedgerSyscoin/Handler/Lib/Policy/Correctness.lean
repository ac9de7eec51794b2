import LedgerSyscoin.Handler.Lib.Policy.Nodes

/-!
# Correctness of the script compiler

The stack compiler returns for every policy within the bounds, and a script it returns
is the one of the recursive compilation. It returns one if the fragments are supported,
the nesting depth is at most ten and the keys can be derived, except for sorted
`multi_a` scripts with more than eight keys, some of whose marks are uninitialized
memory.
-/

namespace LedgerSyscoin.Handler

open Foundation Common List

variable {σ : Type}

/-- A return of the compiler: `none` for a negative value, and else the script. -/
def scriptOutcome : Option (InternalScript σ) → Except ScriptFailure (InternalScript σ)
  | none => .error .failed
  | some script => .ok script

/-- The compiler returns with the given result. -/
def ScriptReturns (ctx : ScriptContext σ) (scriptType : InternalScriptType) (policy : PolicyNode)
    (client : σ) (result : Option (InternalScript σ)) : Prop :=
  ∃ fuel, getWalletInternalScriptHash ctx policy scriptType client fuel =
    some (scriptOutcome result)

/-- The script of the recursive compilation. -/
def compiledBytes (keys : KeySource) (scriptType : InternalScriptType) (policy : PolicyNode) :
    Bytes :=
  (compile keys (scriptType = .tapscript) policy).bytes

variable {ctx : ScriptContext σ} {keys : KeySource} {scriptType : InternalScriptType}
  {policy : PolicyNode} {client : σ}

theorem scriptReturns_iff {result : Option (InternalScript σ)} :
    ScriptReturns ctx scriptType policy client result ↔
      LoopStops (scriptTurn ctx scriptType) (initialParserState policy client)
        (scriptOutcome result) :=
  Iff.rfl

theorem ScriptReturns.unique {left right : Option (InternalScript σ)}
    (leftReturns : ScriptReturns ctx scriptType policy client left)
    (rightReturns : ScriptReturns ctx scriptType policy client right) : left = right := by
  have equal := (scriptReturns_iff.mp leftReturns).unique (scriptReturns_iff.mp rightReturns)
  cases left <;> cases right <;> simp_all [scriptOutcome]

/-- The fragments allowed outside a top-level `wsh` have no children. -/
theorem childless_of_allowed (notWsh : scriptType ≠ .wsh)
    (allowed : policy.type ∈ fragmentWhitelist scriptType) : policy.children = [] := by
  let leafTypes := fragmentWhitelistSh ++ fragmentWhitelistTapscript
  have leafType : policy.type ∈ leafTypes := by
    cases scriptType with
    | sh => exact mem_append_left _ allowed
    | shWsh => exact mem_append_left _ (mem_cons_of_mem _ allowed)
    | wsh => exact absurd rfl notWsh
    | tapscript => exact mem_append_right _ allowed
  cases policy with
  | wrapper token script =>
    exact absurd leafType (show token.type ∉ leafTypes by cases token <;> decide)
  | withScript2 token first second =>
    exact absurd leafType (show token.type ∉ leafTypes by cases token <;> decide)
  | andor => exact absurd leafType (show PolicyNodeType.andor ∉ leafTypes by decide)
  | thresh => exact absurd leafType (show PolicyNodeType.thresh ∉ leafTypes by decide)
  | sh => exact absurd leafType (show PolicyNodeType.sh ∉ leafTypes by decide)
  | wsh => exact absurd leafType (show PolicyNodeType.wsh ∉ leafTypes by decide)
  | _ => rfl

section Bounded

variable (source : DerivesFrom ctx keys) (bounds : ∀ node ∈ policy.nodes, WithinBounds keys node)

include source bounds

/-- The root is completed on the empty stack: the compiler returns the script of the
recursive compilation, and then the policy is supported, or fails although it had to succeed in
no case. -/
theorem scriptReturns_cases (clean : scriptType = .tapscript → CleanMemory ctx policy) :
    (ScriptReturns ctx scriptType policy client none ∧
        ¬ Compiles ctx scriptType (maxPolicyDepth - 1) policy) ∨
      (Supported scriptType (maxPolicyDepth - 1) policy ∧
        ∃ client', ScriptReturns ctx scriptType policy client
          (some ⟨UInt16.ofNat (compiledBytes keys scriptType policy).length,
            compiledBytes keys scriptType policy, client'⟩)) := by
  have completes : Completes ctx scriptType (maxPolicyDepth - 1) ⟨policy, 0, 0, vFlag false⟩
      (compileFlagged keys (scriptType = .tapscript) false policy).bytes
      (Compiles ctx scriptType (maxPolicyDepth - 1) policy)
      (Supported scriptType (maxPolicyDepth - 1) policy) := by
    by_cases allowed : policy.type ∈ fragmentWhitelist scriptType
    · refine completes_node source policy bounds (fun isTap => ?_) _ false (fun absurd => by
        cases absurd)
      subst isTap
      rw [PolicyNode.nodes_of_childless (childless_of_allowed (by decide) allowed)]
      exact forall_mem_singleton.mpr (clean rfl)
    · exact completes_of_not_mem allowed fun compiles => allowed compiles.allowed
  obtain ⟨_, ends, result⟩ := completes [] [] client rfl
  rcases result with ⟨rfl, notCompiles⟩ | ⟨supported, client', _, rfl⟩
  · exact Or.inl ⟨scriptReturns_iff.mpr ends.stops_error, notCompiles⟩
  · refine Or.inr ⟨supported, client', scriptReturns_iff.mpr ?_⟩
    have stops := ends.stops_ok
    simpa [NodeState.after, compileFlagged, compiledBytes, scriptOutcome, initialParserState, vFlag]
      using stops

end Bounded

section Necessity

variable (source : DerivesFrom ctx keys)

include source

/-- With a mark in the stale byte, or more keys than the bitvector has bits, a sorted `multi_a`
script is not compiled, although all its keys can be derived. -/
theorem not_returns_of_not_cleanMemory (isTap : scriptType = .tapscript)
    (compiles : Compiles ctx scriptType (maxPolicyDepth - 1) policy)
    (dirty : ¬ CleanMemory ctx policy) (script : InternalScript σ) :
    ¬ ScriptReturns ctx scriptType policy client (some script) := by
  subst isTap
  obtain ⟨k, placeholders, rfl, marked⟩ : ∃ k placeholders,
      policy = .multisig .sortedmultiA k placeholders ∧
        ¬ ∀ position < placeholders.length, marks [0, ctx.staleByte] position = false := by
    revert dirty
    unfold CleanMemory
    split
    · intro dirty
      exact ⟨_, _, rfl, dirty⟩
    · intro dirty
      exact absurd trivial dirty
  have short : (unmarked (marks [0, ctx.staleByte]) 0
      (comparedKeys keys 1 placeholders)).length < placeholders.length := by
    push Not at marked
    obtain ⟨position, within, isMarked⟩ := marked
    have total : (comparedKeys keys 1 placeholders).length = placeholders.length :=
      length_comparedKeys 1 placeholders
    rw [← total] at within ⊢
    exact length_unmarked_lt within (by rw [Nat.zero_add]; simpa using isMarked)
  -- the search for the last key finds none and marks index `-1`
  have undefined := emitMultisigKeys_undefined source
    (fun i key => 0x20 :: key.drop 1 ++ [if i = 0 then opChecksig else opChecksigadd])
    (fun key mem => compiles.key mem) short 0 client
  obtain ⟨failure, turn⟩ : ∃ failure, scriptTurn ctx .tapscript
      (initialParserState (.multisig .sortedmultiA k placeholders) client) = .error failure := by
    have allowed : PolicyNodeType.sortedmultiA ∈ fragmentWhitelist .tapscript := by decide
    by_cases large : k > 16
    · exact ⟨.failed, scriptTurn_of_error allowed rfl
        (by simp only [processMultiASortedmultiANode, large, if_true])⟩
    · refine ⟨.undefined, scriptTurn_of_error allowed rfl ?_⟩
      simp only [processMultiASortedmultiANode, large, if_false]
      exact (undefined.bind fun _ never => never.elim).eq_error
  intro returns
  cases (scriptReturns_iff.mp returns).unique (LoopEnds.turn turn).stops_error

end Necessity

/-! ## Sample policies -/

/-- The first multiples of the generator of the curve, as the keys of a sample policy. -/
def samplePoint : Nat → Nat
  | 0 => 0x0279be667ef9dcbbac55a06295ce870b07029bfcdb2dce28d959f2815b16f81798
  | 1 => 0x02c6047f9441ed7d6d3045406e95c07cd85c778e4b8cef3ca7abac09b95c709ee5
  | 2 => 0x02f9308a019258c31049344f85f89d5229b531c845836f99b08601f113bce036f9
  | 3 => 0x02e493dbf1c10d80f3581e4904930b1404cc6c13900ee0758474fa94abe8c4cd13
  | 4 => 0x022f8bde4d1a07209355b4a7250a5c5128e88b84bddc619ab7cba8d569b240efe4
  | 5 => 0x03fff97bd5755eeea420453a14355235d382f6472f8568a18b2f057a1460297556
  | 6 => 0x025cbdf0646e5db4eaa398f365f2ea7a0e3d419b7e0330e39ce92bddedcac4f9bc
  | 7 => 0x022f01e5e15cca351daff3843fb70f3c2f0a1bdd05e5af888a67784ef3e10a2a01
  | _ => 0x03acd484e2f0c7f65309ad178a9f559abde09796974c57e714c35f110dfc27ccbe

def sampleKeys : KeySource where
  pubkey key := ⟨beBytes 33 (samplePoint key.keyIndex), length_beBytes _ _⟩
  hash160 _ := sizedBytes (replicate 20 0)

/-- A client that knows all the keys. -/
def sampleContext (staleByte : UInt8) : ScriptContext Unit where
  getDerivedPubkey key client := some (sampleKeys.pubkey key, client)
  cryptoHash160 := sampleKeys.hash160
  staleByte := staleByte

theorem sampleContext_derivesFrom (staleByte : UInt8) :
    DerivesFrom (sampleContext staleByte) sampleKeys := by
  refine ⟨fun key client derived client' run => ?_, rfl⟩
  cases run
  rfl

theorem sampleContext_derivable (staleByte : UInt8) (key : KeyPlaceholder) :
    Derivable (sampleContext staleByte) key :=
  fun client => ⟨(sampleKeys.pubkey key, client), rfl⟩

/-- `or_d(pk(@0/**),and_v(v:pk(@1/**),older(1000)))` -/
def sampleRecoveryPolicy : PolicyNode :=
  .withScript2 .orD (.withKey .pk ⟨0, 1, 0⟩)
    (.withScript2 .andV (.wrapper .v (.withKey .pk ⟨0, 1, 1⟩)) (.withUint32 .older 1000))

end LedgerSyscoin.Handler
