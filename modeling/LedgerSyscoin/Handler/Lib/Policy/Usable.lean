import LedgerSyscoin.Handler.Lib.Policy.Sane
import LedgerSyscoin.Handler.Lib.Policy.Size
import LedgerSyscoin.Handler.Lib.Policy.WalletScript

/-!
# Usable policies

The checks of a registration against the policies whose scripts can be computed. A
registered policy has output scripts exactly if the compiler supports its fragments and
their nesting, and the sorted `multi_a` scripts find clean memory. The checks accept
other policies as well, for instance `sh(pkh(@0/**))`.
-/

namespace LedgerSyscoin.Handler

open Foundation Common List

variable {σ : Type} {scratch : Nat → Int} {nKeys : UInt32}

/-! ## Registration -/

def isPolicyAcceptable (policy : PolicyNode) : Bool :=
  policy.type ∈ [.pkh, .wpkh, .sh, .wsh, .tr]

/-- The checks of a registration on the descriptor template and the list of keys. -/
def checkRegistration (settings : TemplateSettings) (scratch : Nat → Int) (lookup : KeyLookup σ)
    (template : Bytes) (nKeys : UInt32) (client : σ) : Option (PolicyNode × σ) :=
  match parseDescriptorTemplate settings template with
  | .error _ => none
  | .ok policy =>
    if countDistinctKeysInfo policy = nKeys.toInt32.toInt && isPolicyAcceptable policy then
      (isPolicySane scratch lookup policy nKeys client).map (policy, ·)
    else none

variable {lookup : KeyLookup σ}

theorem checkRegistration_eq_some {settings : TemplateSettings}
    {template : Bytes} {client client' : σ} {policy : PolicyNode}
    (registered : checkRegistration settings scratch lookup template nKeys client =
      some (policy, client')) :
    parseDescriptorTemplate settings template = .ok policy ∧
      isPolicyAcceptable policy = true ∧
        isPolicySane scratch lookup policy nKeys client = some client' := by
  rw [checkRegistration] at registered
  split at registered
  · cases registered
  · rename_i parsed accepted
    split at registered
    · rename_i checks
      rw [Bool.and_eq_true] at checks
      simp only [Option.map_eq_some_iff, Prod.mk.injEq] at registered
      obtain ⟨_, sane, rfl, rfl⟩ := registered
      exact ⟨accepted, checks.2, sane⟩
    · cases registered

/-! ## Usable policies -/

/-- A script inside `tr` that can be compiled. -/
def LeafUsable (ctx : ScriptContext σ) (script : PolicyNode) : Prop :=
  Supported .tapscript (maxPolicyDepth - 1) script ∧ CleanMemory ctx script

/-- The policies whose output scripts can be computed. -/
def Usable (ctx : ScriptContext σ) : PolicyNode → Prop
  | .withKey token _ => token = .pkh ∨ token = .wpkh
  | .sh (.wsh core) => Supported .shWsh (maxPolicyDepth - 1) core
  | .sh core => Supported .sh (maxPolicyDepth - 1) core
  | .wsh core => Supported .wsh (maxPolicyDepth - 1) core
  | .tr _ tree => ∀ script ∈ tree.elim [] PolicyTree.leaves, LeafUsable ctx script
  | _ => False

/-! ## An honest client -/

section Honest

variable {ExtPubkey : Type} {access : KeyAccess σ ExtPubkey}

/-- The client provides the extended keys of the policy, and no derived key has the largest
number as its coordinate: it is not smaller than the order of the field. -/
structure Honest (access : KeyAccess σ ExtPubkey) (extPubkey : Nat → ExtPubkey) : Prop where
  provides : ∀ index client, ∃ client',
    access.getExtendedPubkey index client = some (extPubkey index, client')
  coordinate : ∀ key, (access.compressedPubkey key).val.drop 1 ≠ replicate 32 0xff

/-- The keys of a policy at a derivation. -/
def keySource (access : KeyAccess σ ExtPubkey) (extPubkey : Nat → ExtPubkey)
    (wdi : WalletDerivationInfo) : KeySource where
  pubkey keyPlaceholder := deriveChild access wdi keyPlaceholder (extPubkey keyPlaceholder.keyIndex)
  hash160 := access.cryptoHash160

variable {extPubkey : Nat → ExtPubkey} (honest : Honest access extPubkey)
  (wdi : WalletDerivationInfo)

include honest

theorem Honest.getDerivedPubkey (keyPlaceholder : KeyPlaceholder) (client : σ) : ∃ client',
    (scriptContext access wdi).getDerivedPubkey keyPlaceholder client =
      some ((keySource access extPubkey wdi).pubkey keyPlaceholder, client') := by
  obtain ⟨client', provided⟩ := honest.provides keyPlaceholder.keyIndex client
  refine ⟨client', ?_⟩
  simp [scriptContext, Handler.getDerivedPubkey, provided, keySource]

theorem Honest.derivesFrom :
    DerivesFrom (scriptContext access wdi) (keySource access extPubkey wdi) where
  pubkey keyPlaceholder client derived client' run := by
    obtain ⟨_, provided⟩ := honest.getDerivedPubkey wdi keyPlaceholder client
    cases provided.symm.trans run
    rfl
  hash160 := rfl

theorem Honest.derivable (keyPlaceholder : KeyPlaceholder) :
    Derivable (scriptContext access wdi) keyPlaceholder := by
  intro client
  obtain ⟨_, provided⟩ := honest.getDerivedPubkey wdi keyPlaceholder client
  exact ⟨_, provided⟩

theorem Honest.keyData_ne (keyPlaceholder : KeyPlaceholder) :
    (keySource access extPubkey wdi).keyData false keyPlaceholder ≠ replicate 33 0xff ∧
      (keySource access extPubkey wdi).keyData true keyPlaceholder ≠ replicate 32 0xff := by
  have coordinate : ((keySource access extPubkey wdi).pubkey keyPlaceholder).val.drop 1 ≠
      replicate 32 0xff := honest.coordinate _
  refine ⟨fun largest => coordinate ?_, by simpa [KeySource.keyData] using coordinate⟩
  have bytes : ((keySource access extPubkey wdi).pubkey keyPlaceholder).val =
      replicate 33 0xff := by simpa [KeySource.keyData] using largest
  rw [bytes]
  rfl

end Honest

/-! ## Bounds of the scripts -/

section Bounds

variable {keys : KeySource} {node : PolicyNode} {flags : Option MiniscriptFlags}

/-- A well-typed script without children respects the bounds of the compiler. -/
theorem withinBounds_of_childless (wellTyped : WellTyped node flags)
    (childless : node.children = [])
    (keyData : ∀ key, keys.keyData false key ≠ replicate 33 0xff ∧
      keys.keyData true key ≠ replicate 32 0xff) :
    ∀ inner ∈ node.nodes, WithinBounds keys inner := by
  rw [PolicyNode.nodes_of_childless childless]
  refine forall_mem_singleton.mpr ?_
  cases wellTyped with
  | multisig token positive enough few =>
    exact ⟨positive, enough.trans few, fun _ => ⟨positive.trans enough, few⟩,
      fun _ key _ => (keyData key).1, fun _ key _ => (keyData key).2⟩
  | wrapper | withScript2 | andor | thresh => cases childless
  | _ => trivial

/-- The script inside `wsh` that passes the sanity checks respects the bounds of the compiler. -/
theorem withinBounds_of_sane {client client' : σ} (wellTyped : WellTyped node flags)
    (sane : isPolicySane scratch lookup (.wsh node) nKeys client = some client')
    (allowed : node.type ∈ fragmentWhitelist .wsh)
    (keyData : ∀ key, keys.keyData false key ≠ replicate 33 0xff ∧
      keys.keyData true key ≠ replicate 32 0xff) :
    ∀ inner ∈ node.nodes, WithinBounds keys inner := by
  cases stored : storedFlags node with
  | some nodeFlags =>
    obtain ⟨_, analysed, -⟩ := isMiniscriptSane_of_isPolicySane stored sane
    exact fun inner mem => (withinBounds_nodes keys wellTyped analysed inner mem).1
  | none =>
    -- the only script inside `wsh` that is no miniscript and is compiled is `sortedmulti`
    refine withinBounds_of_childless wellTyped ?_ keyData
    rw [wellTyped.storedFlags_eq] at stored
    obtain ⟨notSh, notWsh, -⟩ := ne_topLevel_of_allowed allowed
    cases wellTyped with
    | wrapper | withScript2 | andor | thresh => cases stored
    | sh => exact absurd rfl notSh
    | wsh => exact absurd rfl notWsh
    | _ => rfl

end Bounds

/-! ## Success of the compiler -/

/-- With enough fuel a program returns a value. -/
def Succeeds {α : Type} (program : Fuelled ScriptFailure α) : Prop :=
  ∃ value, program.Returns (.ok value)

section Succeeds

variable {α β : Type} {program : Fuelled ScriptFailure α} {next : α → Fuelled ScriptFailure β}

/-- A sequence succeeds with its first part, if the success of the second part does not depend on
the value in between. -/
theorem succeeds_bind_iff (settled : program.Settled) (each : ∀ value, (next value).Settled)
    (holds : Prop) (second : ∀ value, program.Returns (.ok value) →
      (Succeeds (next value) ↔ holds)) :
    Succeeds (program >>= next) ↔ Succeeds program ∧ holds := by
  constructor
  · rintro ⟨value, returns⟩
    obtain ⟨middle, first, later⟩ := (Fuelled.returns_bind_ok settled each).mp returns
    exact ⟨⟨middle, first⟩, (second middle first).mp ⟨value, later⟩⟩
  · rintro ⟨⟨middle, first⟩, holds⟩
    obtain ⟨value, later⟩ := (second middle first).mpr holds
    exact ⟨value, (Fuelled.returns_bind_ok settled each).mpr ⟨middle, first, later⟩⟩

theorem succeeds_pure (value : α) : Succeeds (pure value) :=
  ⟨value, Fuelled.returns_pure.mpr rfl⟩

/-- A program that only computes with the value of its first part. -/
theorem succeeds_bind_pure_iff (settled : program.Settled) (f : α → β) :
    (Succeeds do let value ← program; pure (f value)) ↔ Succeeds program := by
  have bind := succeeds_bind_iff settled (fun value => Fuelled.settled_pure (f value)) True
    (fun value _ => iff_of_true (succeeds_pure _) trivial)
  rwa [and_true] at bind

theorem not_succeeds_throw (failure : ScriptFailure) :
    ¬ Succeeds (throw failure : Fuelled ScriptFailure α) := by
  rintro ⟨_, returns⟩
  cases Fuelled.returns_throw.mp returns

end Succeeds

section Compiler

variable {ctx : ScriptContext σ} {keys : KeySource} {scriptType : InternalScriptType}
  {policy : PolicyNode}

theorem settled_internalScript (client : σ) :
    (internalScript ctx policy scriptType client).Settled :=
  Fuelled.settled_ofLoop _ _

variable (source : DerivesFrom ctx keys) (derivable : ∀ key, Derivable ctx key)
  (bounds : policy.type ∈ fragmentWhitelist scriptType →
    ∀ node ∈ policy.nodes, WithinBounds keys node)

include source derivable bounds

/-- The compiler returns a script exactly if the policy is supported and, for tapscripts, finds
clean memory. -/
theorem succeeds_internalScript_iff (client : σ) :
    Succeeds (internalScript ctx policy scriptType client) ↔
      Supported scriptType (maxPolicyDepth - 1) policy ∧
        (scriptType = .tapscript → CleanMemory ctx policy) := by
  by_cases allowed : policy.type ∈ fragmentWhitelist scriptType
  case neg =>
    refine iff_of_false ?_ fun usable => allowed (usable.1.allowed policy policy.mem_nodes_self)
    rintro ⟨script, returns⟩
    have turn : scriptTurn ctx scriptType (initialParserState policy client) = .error .failed :=
      scriptTurn_of_not_mem allowed
    cases (settled_internalScript client).returns_unique returns (LoopEnds.turn turn).stops_error
  have nodeBounds := bounds allowed
  by_cases clean : scriptType = .tapscript → CleanMemory ctx policy
  case pos =>
    rcases @scriptReturns_cases σ ctx keys scriptType policy client source nodeBounds clean with
      ⟨fails, notCompiles⟩ | ⟨supported, _, succeeds⟩
    · refine iff_of_false ?_ fun usable => notCompiles ⟨usable.1.allowed, usable.1.shallow,
        fun _ _ key _ => derivable key⟩
      rintro ⟨script, returns⟩
      cases (settled_internalScript client).returns_unique returns fails
    · exact iff_of_true ⟨_, succeeds⟩ ⟨supported, clean⟩
  case neg =>
    refine iff_of_false ?_ fun usable => clean usable.2
    rintro ⟨script, returns⟩
    push Not at clean
    obtain ⟨isTap, dirty⟩ := clean
    have childless := childless_of_allowed (by rw [isTap]; decide) allowed
    have compiles : Compiles ctx scriptType (maxPolicyDepth - 1) policy := by
      refine ⟨?_, ?_, fun _ _ key _ => derivable key⟩
      · rw [PolicyNode.nodes_of_childless childless]
        exact forall_mem_singleton.mpr allowed
      · have leaf : policy.depth ≤ 0 + 1 := PolicyNode.depth_le_of_children (by simp [childless])
        exact leaf.trans (by decide)
    exact not_returns_of_not_cleanMemory source isTap compiles dirty script returns

/-- A script that the compiler returns is that of the recursive compilation. -/
theorem compiled_of_internalScript {client : σ} {script : InternalScript σ}
    (returns : (internalScript ctx policy scriptType client).Returns (.ok script)) :
    script.output = compiledBytes keys scriptType policy ∧
      script.length = UInt16.ofNat (compiledBytes keys scriptType policy).length := by
  have usable := (succeeds_internalScript_iff source derivable bounds client).mp ⟨script, returns⟩
  have allowed := usable.1.allowed policy policy.mem_nodes_self
  rcases @scriptReturns_cases σ ctx keys scriptType policy client source (bounds allowed)
    usable.2 with ⟨fails, -⟩ | ⟨-, client', succeeds⟩
  · cases (settled_internalScript client).returns_unique returns fails
  · cases (settled_internalScript client).returns_unique returns succeeds
    exact ⟨rfl, rfl⟩

omit bounds in
/-- The hash of a leaf is computed exactly if the leaf is usable. -/
theorem succeeds_computeTapleafHash_iff (crypto : WalletCrypto)
    (bounds : policy.type ∈ fragmentWhitelist .tapscript →
      ∀ node ∈ policy.nodes, WithinBounds keys node) (client : σ) :
    Succeeds (computeTapleafHash crypto ctx policy client) ↔ LeafUsable ctx policy := by
  have compiled : ∀ client, Succeeds (internalScript ctx policy .tapscript client) ↔
      LeafUsable ctx policy := by
    intro client
    rw [succeeds_internalScript_iff source derivable bounds, LeafUsable]
    simp
  rw [computeTapleafHash, succeeds_bind_iff (settled_internalScript client)
    (fun _ => (settled_internalScript _).bind fun _ => Fuelled.settled_pure _)
    (LeafUsable ctx policy), compiled, and_self]
  intro sized _
  rw [succeeds_bind_pure_iff (settled_internalScript _), compiled]

end Compiler

theorem settled_computeTapleafHash (crypto : WalletCrypto) (ctx : ScriptContext σ)
    (script : PolicyNode) (client : σ) : (computeTapleafHash crypto ctx script client).Settled :=
  (settled_internalScript _).bind fun _ =>
    (settled_internalScript _).bind fun _ => Fuelled.settled_pure _

theorem settled_computeTaptreeHash (crypto : WalletCrypto) (ctx : ScriptContext σ) :
    (tree : PolicyTree) → (client : σ) → (computeTaptreeHash crypto ctx tree client).Settled
  | .leaf script, client => settled_computeTapleafHash crypto ctx script client
  | .branch left right, client =>
    (settled_computeTaptreeHash crypto ctx left client).bind fun _ =>
      (settled_computeTaptreeHash crypto ctx right _).bind fun _ => Fuelled.settled_pure _

section Trees

variable {ctx : ScriptContext σ} {keys : KeySource} (source : DerivesFrom ctx keys)
  (derivable : ∀ key, Derivable ctx key) (crypto : WalletCrypto)

include source derivable

/-- The root of a tree is computed exactly if all the leaves are usable. -/
theorem succeeds_computeTaptreeHash_iff : (tree : PolicyTree) →
    (∀ script ∈ tree.leaves, script.type ∈ fragmentWhitelist .tapscript →
      ∀ node ∈ script.nodes, WithinBounds keys node) → (client : σ) →
      (Succeeds (computeTaptreeHash crypto ctx tree client) ↔
        ∀ script ∈ tree.leaves, LeafUsable ctx script)
  | .leaf script, bounds, client => by
    rw [computeTaptreeHash, PolicyTree.leaves, forall_mem_singleton]
    exact succeeds_computeTapleafHash_iff source derivable crypto
      (bounds script (mem_singleton_self _)) client
  | .branch left right, bounds, client => by
    rw [PolicyTree.leaves, forall_mem_append] at bounds
    rw [computeTaptreeHash, PolicyTree.leaves, forall_mem_append,
      succeeds_bind_iff (settled_computeTaptreeHash crypto ctx left client)
        (fun _ => (settled_computeTaptreeHash crypto ctx right _).bind fun _ =>
          Fuelled.settled_pure _)
        (∀ script ∈ right.leaves, LeafUsable ctx script),
      succeeds_computeTaptreeHash_iff left bounds.1]
    intro middle _
    rw [succeeds_bind_pure_iff (settled_computeTaptreeHash crypto ctx right _),
      succeeds_computeTaptreeHash_iff right bounds.2]

end Trees

/-! ## Success of output scripts -/

section Scripts

variable {ExtPubkey : Type} {access : KeyAccess σ ExtPubkey} {extPubkey : Nat → ExtPubkey}

theorem settled_derivedKey (ctx : ScriptContext σ) (keyPlaceholder : KeyPlaceholder) (client : σ) :
    (derivedKey ctx keyPlaceholder client).Settled := by
  rw [derivedKey]
  split
  · exact Fuelled.settled_pure _
  · exact Fuelled.settled_throw _

theorem Honest.succeeds_derivedKey (honest : Honest access extPubkey) (wdi : WalletDerivationInfo)
    (keyPlaceholder : KeyPlaceholder) (client : σ) :
    Succeeds (derivedKey (scriptContext access wdi) keyPlaceholder client) := by
  obtain ⟨_, derived⟩ := honest.getDerivedPubkey wdi keyPlaceholder client
  rw [derivedKey, derived]
  exact succeeds_pure _

/-- The output script of an accepted and sane policy is computed exactly if the policy is
usable. -/
theorem succeeds_getWalletScript_iff (honest : Honest access extPubkey) (crypto : WalletCrypto)
    (wdi : WalletDerivationInfo) {policy : PolicyNode}
    {flags : Option MiniscriptFlags} {start saneClient : σ}
    (wellTyped : WellTyped policy flags)
    (sane : isPolicySane scratch lookup policy nKeys start = some saneClient) (client : σ) :
    Succeeds (getWalletScript crypto (scriptContext access wdi) policy client) ↔
      Usable (scriptContext access wdi) policy := by
  have source := honest.derivesFrom wdi
  have derivable := honest.derivable wdi
  have keyData := honest.keyData_ne wdi
  have keyFirst := honest.succeeds_derivedKey wdi
  -- outside a top-level `wsh` only scripts without children are compiled
  have plain : ∀ core scriptType, scriptType ≠ .wsh → (∃ coreFlags, WellTyped core coreFlags) →
      core.type ∈ fragmentWhitelist scriptType →
        ∀ node ∈ core.nodes, WithinBounds (keySource access extPubkey wdi) node :=
    fun core scriptType notWsh ⟨_, typed⟩ allowed =>
      withinBounds_of_childless typed (childless_of_allowed notWsh allowed) keyData
  cases policy with
  | withKey token key =>
    cases token with
    | pkh =>
      rw [getWalletScript, succeeds_bind_pure_iff (settled_derivedKey _ key client)]
      exact iff_of_true (keyFirst key client) (.inl rfl)
    | wpkh =>
      rw [getWalletScript, succeeds_bind_pure_iff (settled_derivedKey _ key client)]
      exact iff_of_true (keyFirst key client) (.inr rfl)
    | _ =>
      exact iff_of_false (not_succeeds_throw _) (by rintro (isPkh | isWpkh) <;> contradiction)
  | sh core =>
    have coreTyped := wellTyped.child (mem_singleton_self core)
    by_cases isWsh : ∃ inner, core = .wsh inner
    · obtain ⟨inner, rfl⟩ := isWsh
      obtain ⟨_, wshTyped⟩ := coreTyped
      rw [getWalletScript, succeeds_bind_pure_iff (settled_internalScript client),
        succeeds_internalScript_iff source derivable
          (plain inner .shWsh (by decide) (wshTyped.child (mem_singleton_self inner)))]
      simp [Usable]
    · have script : getWalletScript crypto (scriptContext access wdi) (.sh core) client = do
          let script ← internalScript (scriptContext access wdi) core .sh client
          return (p2shScript crypto (crypto.sha256 script.output), script.client) := by
        cases core <;> first | rfl | exact absurd ⟨_, rfl⟩ isWsh
      have usable : Usable (scriptContext access wdi) (.sh core) ↔
          Supported .sh (maxPolicyDepth - 1) core := by
        cases core <;> first | exact Iff.rfl | exact absurd ⟨_, rfl⟩ isWsh
      rw [script, usable, succeeds_bind_pure_iff (settled_internalScript client),
        succeeds_internalScript_iff source derivable (plain core .sh (by decide) coreTyped)]
      simp
  | wsh core =>
    obtain ⟨_, coreTyped⟩ := wellTyped.child (mem_singleton_self core)
    rw [getWalletScript, succeeds_bind_pure_iff (settled_internalScript client),
      succeeds_internalScript_iff source derivable
        (fun allowed => withinBounds_of_sane coreTyped sane allowed keyData)]
    simp [Usable]
  | tr key tree =>
    cases tree with
    | none =>
      rw [getWalletScript, succeeds_bind_pure_iff (settled_derivedKey _ key client)]
      exact iff_of_true (keyFirst key client) (by simp [Usable])
    | some tree =>
      have leaves : ∀ client, Succeeds (computeTaptreeHash crypto (scriptContext access wdi)
          tree client) ↔ ∀ script ∈ tree.leaves, LeafUsable (scriptContext access wdi) script :=
        succeeds_computeTaptreeHash_iff source derivable crypto tree fun script mem =>
          plain script .tapscript (by decide) (wellTyped.leaf mem)
      rw [getWalletScript, succeeds_bind_iff (settled_derivedKey _ key client)
        (fun _ => (settled_computeTaptreeHash crypto _ tree _).bind fun _ =>
          Fuelled.settled_pure _)
        (∀ script ∈ tree.leaves, LeafUsable (scriptContext access wdi) script),
        and_iff_right (keyFirst key client)]
      · simp [Usable]
      · intro derived _
        rw [succeeds_bind_pure_iff (settled_computeTaptreeHash crypto _ tree _), leaves]
  | _ => exact iff_of_false (not_succeeds_throw _) nofun

/-- The output scripts of a policy that passed the checks of a registration can be computed with an
honest client, at every derivation, exactly if the policy is usable. -/
theorem registered_usable_iff {settings : TemplateSettings} {scratch : Nat → Int}
    {lookup : KeyLookup σ} {template : Bytes} {nKeys : UInt32} {start checked : σ}
    {policy : PolicyNode}
    (registered : checkRegistration settings scratch lookup template nKeys start =
      some (policy, checked))
    (honest : Honest access extPubkey) (crypto : WalletCrypto) (wdi : WalletDerivationInfo)
    (client : σ) :
    Succeeds (getWalletScript crypto (scriptContext access wdi) policy client) ↔
      Usable (scriptContext access wdi) policy := by
  obtain ⟨accepted, -, sane⟩ := checkRegistration_eq_some registered
  obtain ⟨_, wellTyped⟩ := wellTyped_of_parseDescriptorTemplate accepted
  exact succeeds_getWalletScript_iff honest crypto wdi wellTyped sane client

/-! ## Redeem scripts -/

/-- The largest element that a script may push. -/
def maxScriptElementSize : Nat := 520

/-- The length of the script of a multisignature outside taproot. -/
theorem length_compile_multisig (keys : KeySource) {token : MultisigToken}
    (isMulti : token = .multi ∨ token = .sortedmulti) {k : Nat}
    {keyPlaceholders : List KeyPlaceholder} (positive : 1 ≤ k) (enough : k ≤ keyPlaceholders.length)
    (few : keyPlaceholders.length ≤ maxPubkeysPerMultisig) :
    (compile keys false (.multisig token k keyPlaceholders)).bytes.length =
      3 + 34 * keyPlaceholders.length := by
  have lengths : ∀ data ∈ multisigKeys keys token keyPlaceholders, data.length = 33 := by
    intro data mem
    rw [length_of_mem_multisigKeys token mem, if_neg (by rcases isMulti with rfl | rfl <;> decide)]
  have size := (pushes_spec lengths).1
  have count := length_multisigKeys keys token keyPlaceholders
  have small : ∀ n, 1 ≤ n → n ≤ 16 → (pushInteger (UInt32.ofNat n)).bytes.length = 1 :=
    fun n nonzero le => by rw [bytes_pushInteger_of_le nonzero le]; rfl
  have pushK := small k positive (enough.trans few)
  have pushN := small keyPlaceholders.length (positive.trans enough) few
  rw [count] at size
  rcases isMulti with rfl | rfl <;>
    simp only [compile, compileLeaf, Script.bytes_append, Script.bytes_cons, Script.bytes_nil,
      length_append, length_nil, ScriptItem.length_bytes_op, count, size, pushK, pushN] <;>
    omega

/-- The policies with the types of multisignatures outside taproot. -/
theorem exists_multisig_of_type {node : PolicyNode}
    (isMulti : node.type = .multi ∨ node.type = .sortedmulti) :
    ∃ token k keyPlaceholders, node = .multisig token k keyPlaceholders ∧
      (token = .multi ∨ token = .sortedmulti) := by
  cases node with
  | multisig token k keyPlaceholders =>
    refine ⟨token, k, keyPlaceholders, rfl, ?_⟩
    cases token <;> simp_all [PolicyNode.type, MultisigToken.type]
  | constant token => cases token <;> simp [PolicyNode.type, ConstantToken.type] at isMulti
  | withKey token => cases token <;> simp [PolicyNode.type, KeyToken.type] at isMulti
  | withUint32 token => cases token <;> simp [PolicyNode.type, TimelockToken.type] at isMulti
  | withHash256 token => cases token <;> simp [PolicyNode.type, Hash256Token.type] at isMulti
  | withHash160 token => cases token <;> simp [PolicyNode.type, Hash160Token.type] at isMulti
  | wrapper token => cases token <;> simp [PolicyNode.type, WrapperToken.type] at isMulti
  | withScript2 token => cases token <;> simp [PolicyNode.type, Script2Token.type] at isMulti
  | _ => simp [PolicyNode.type] at isMulti

/-- The redeem script of an accepted `sh` that is no nested segwit fits into a pushed element, at
every derivation, exactly if a multisignature in it has at most fifteen keys. -/
theorem redeemScript_fits_iff {settings : TemplateSettings} {template : Bytes}
    {script : PolicyNode} (accepted : parseDescriptorTemplate settings template = .ok (.sh script))
    (notSegwit : script.type ≠ .wsh ∧ script.type ≠ .wpkh) (honest : Honest access extPubkey)
    (wdi : WalletDerivationInfo) (client : σ) :
    (∀ emitted, ScriptReturns (scriptContext access wdi) .sh script client (some emitted) →
        emitted.output.length ≤ maxScriptElementSize) ↔
      ∀ token k keyPlaceholders, script = .multisig token k keyPlaceholders →
        token = .multi ∨ token = .sortedmulti → keyPlaceholders.length ≤ 15 := by
  obtain ⟨_, policyTyped⟩ := wellTyped_of_parseDescriptorTemplate accepted
  obtain ⟨_, wellTyped⟩ := policyTyped.child (mem_singleton_self script)
  have source := honest.derivesFrom wdi
  have bounds : script.type ∈ fragmentWhitelist .sh →
      ∀ node ∈ script.nodes, WithinBounds (keySource access extPubkey wdi) node := fun allowed =>
    withinBounds_of_childless wellTyped (childless_of_allowed (by decide) allowed)
      (honest.keyData_ne wdi)
  have succeeds := succeeds_internalScript_iff source (honest.derivable wdi) bounds client
  -- the emitted script of a multisignature has the length of its compilation
  have lengthOf : ∀ token k keyPlaceholders, script = .multisig token k keyPlaceholders →
      token = .multi ∨ token = .sortedmulti → ∀ emitted,
        ScriptReturns (scriptContext access wdi) .sh script client (some emitted) →
          emitted.output.length = 3 + 34 * keyPlaceholders.length := by
    rintro token k keyPlaceholders rfl isMulti emitted returns
    have allowed : token.type ∈ fragmentWhitelist .sh := by rcases isMulti with rfl | rfl <;> decide
    rcases @scriptReturns_cases σ _ _ .sh _ client source (bounds allowed) nofun with
      ⟨fails, -⟩ | ⟨-, client', compiled⟩
    · cases fails.unique returns
    · cases compiled.unique returns
      cases wellTyped with
      | multisig _ positive enough few =>
        exact length_compile_multisig _ isMulti positive enough few
  constructor
  · rintro fits token k keyPlaceholders rfl isMulti
    have allowed : token.type ∈ fragmentWhitelist .sh := by rcases isMulti with rfl | rfl <;> decide
    obtain ⟨emitted, returns⟩ :=
      succeeds.mpr ⟨supported_of_children allowed (forall_mem_nil _), nofun⟩
    have fit := fits emitted returns
    rw [lengthOf token k keyPlaceholders rfl isMulti emitted returns, maxScriptElementSize] at fit
    omega
  · intro few emitted returns
    have supported := (succeeds.mp ⟨emitted, returns⟩).1
    have allowed := supported.allowed script script.mem_nodes_self
    have isMulti : script.type = .multi ∨ script.type = .sortedmulti := by
      simpa [fragmentWhitelist, fragmentWhitelistSh, notSegwit.2] using allowed
    obtain ⟨token, k, keyPlaceholders, isMultisig, tokenMulti⟩ := exists_multisig_of_type isMulti
    have le := few token k keyPlaceholders isMultisig tokenMulti
    rw [lengthOf token k keyPlaceholders isMultisig tokenMulti emitted returns,
      maxScriptElementSize]
    omega

end Scripts

/-! ## Sample policies -/

/-- Extended keys are numbers, and their children are numbered in turn. -/
def sampleAccess : KeyAccess Unit Nat where
  getExtendedPubkey index client := some (index, client)
  bip32CKDpub key child := 1000 * key + child.toNat + 1
  compressedPubkey key := ⟨2 :: 0 :: beBytes 31 key, by simp [length_beBytes]⟩
  cryptoHash160 _ := sizedBytes (replicate 20 0)
  staleByte := 0

theorem sampleAccess_honest : Honest sampleAccess id where
  provides _ client := ⟨client, rfl⟩
  coordinate key largest := by simp [sampleAccess, replicate_succ] at largest

/-- A hash function that keeps the start of its input. -/
def sampleCrypto : WalletCrypto where
  sha256 := Digest.ofBytes
  ripemd160 _ := sizedBytes (replicate 20 0)
  trTweakPubkey _ := Digest.ofBytes

theorem registered_usable_recovery :
    Usable (scriptContext sampleAccess ⟨true, 7⟩) (.wsh sampleRecoveryPolicy) ∧
      Succeeds (getWalletScript sampleCrypto (scriptContext sampleAccess ⟨true, 7⟩)
        (.wsh sampleRecoveryPolicy) ()) := by
  have registered : checkRegistration sampleSettings (fun _ => 0) sampleLookup
      sampleRecoveryTemplate 2 () = some (.wsh sampleRecoveryPolicy, ()) := by decide +kernel
  have usable : Usable (scriptContext sampleAccess ⟨true, 7⟩) (.wsh sampleRecoveryPolicy) := by
    constructor
    · decide
    · decide
  exact ⟨usable, (registered_usable_iff registered sampleAccess_honest sampleCrypto ⟨true, 7⟩
    ()).mpr usable⟩

/-- `nnnnnnnnnn:pk(@0/**)` -/
def sampleDeepPolicy : PolicyNode :=
  (replicate 10 WrapperToken.n).foldr .wrapper (.withKey .pk ⟨0, 1, 0⟩)

/-- Two policies that pass the checks of a registration: a fragment that is not supported inside
`sh`, and a script with eleven nested nodes. Their output scripts are refused. -/
theorem registered_not_usable :
    checkRegistration sampleSettings (fun _ => 0) sampleLookup
        ("sh(pkh(@0/**))".toList.map ascii) 1 () =
      some (.sh (.withKey .pkh ⟨0, 1, 0⟩), ()) ∧
    (getWalletScript sampleCrypto (scriptContext sampleAccess ⟨false, 0⟩)
        (.sh (.withKey .pkh ⟨0, 1, 0⟩)) ()).Returns (.error .failed) ∧
    checkRegistration sampleSettings (fun _ => 0) sampleLookup
        ("wsh(nnnnnnnnnn:pk(@0/**))".toList.map ascii) 1 () =
      some (.wsh sampleDeepPolicy, ()) ∧
    (getWalletScript sampleCrypto (scriptContext sampleAccess ⟨false, 0⟩)
        (.wsh sampleDeepPolicy) ()).Returns (.error .failed) :=
  ⟨by decide +kernel, ⟨1, rfl⟩, by decide +kernel, ⟨11, rfl⟩⟩

/-- `multi(1,@0/**,...)` with the given number of keys. -/
def sampleMultiPolicy (n : Nat) : PolicyNode :=
  .multisig .multi 1 ((range n).map fun index => ⟨0, 1, index⟩)

def sampleMultiTemplate (n : Nat) : Bytes :=
  ("sh(multi(1".toList ++ (range n).flatMap (fun index => ",@".toList ++
    (Nat.toDigits 10 index) ++ "/**".toList) ++ "))".toList).map ascii

theorem redeemScript_fits_two_keys :
    parseDescriptorTemplate sampleSettings (sampleMultiTemplate 2) =
        .ok (.sh (sampleMultiPolicy 2)) ∧
      ∀ emitted, ScriptReturns (scriptContext sampleAccess ⟨false, 3⟩) .sh (sampleMultiPolicy 2) ()
        (some emitted) → emitted.output.length ≤ maxScriptElementSize := by
  have accepted : parseDescriptorTemplate sampleSettings (sampleMultiTemplate 2) =
      .ok (.sh (sampleMultiPolicy 2)) := by decide +kernel
  refine ⟨accepted,
    (redeemScript_fits_iff accepted (by decide) sampleAccess_honest ⟨false, 3⟩ ()).mpr ?_⟩
  rintro token k keyPlaceholders isMultisig -
  cases isMultisig
  decide

/-- A policy with sixteen keys that the parser and the sanity checks accept, with a redeem script
that cannot be pushed. -/
theorem redeemScript_sixteen_keys_too_long :
    checkRegistration sampleSettings (fun _ => 0) sampleLookup (sampleMultiTemplate 16) 16 () =
        some (.sh (sampleMultiPolicy 16), ()) ∧
      ∃ emitted, ScriptReturns (scriptContext sampleAccess ⟨false, 0⟩) .sh (sampleMultiPolicy 16) ()
        (some emitted) ∧ emitted.output.length = 547 := by
  refine ⟨by decide +kernel, ?_⟩
  refine @Fuelled.exists_returns_of_map ScriptFailure (InternalScript Unit) Nat _ 1
    (·.output.length) _ ?_
  decide +kernel

end LedgerSyscoin.Handler
