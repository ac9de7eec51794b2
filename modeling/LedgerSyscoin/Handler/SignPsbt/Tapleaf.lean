import LedgerSyscoin.Handler.Lib.Policy.Usable

/-!
# Hashes of the leaves that are signed

`fill_taproot_placeholder_info` computes the hash of the leaf that contains the
placeholder being signed for. The branch of the derivation is passed as a `bool`, so
that the leaf is compiled for a change address exactly if the branch is not zero. The
hash is that of the leaf in the output key if this is whether the input is a change
address.
-/

namespace LedgerSyscoin.Handler

open Foundation Common

variable {σ ExtPubkey : Type}

/-- The branch of a placeholder at an input. -/
def placeholderBranch (isChange : Bool) (placeholder : KeyPlaceholder) : UInt32 :=
  if isChange then placeholder.numSecond else placeholder.numFirst

/-- The hash of the leaf for a placeholder and an input. The conversion of the branch to the
`bool` of the derivation info is that of the source. -/
def fillTaprootPlaceholderInfo (crypto : WalletCrypto) (access : KeyAccess σ ExtPubkey)
    (isChange : Bool) (addressIndex : UInt32) (tapleaf : PolicyNode)
    (placeholder : KeyPlaceholder) (client : σ) : Fuelled ScriptFailure (Digest × σ) := do
  let change := placeholderBranch isChange placeholder
  let ctx := scriptContext access ⟨change ≠ 0, addressIndex⟩
  let sized ← internalScript ctx tapleaf .tapscript client
  let hashed ← internalScript ctx tapleaf .tapscript sized.client
  return (tapleafHash crypto sized.length.toNat hashed.output, hashed.client)

/-! ## Placeholders inside leaves -/

theorem written_andThen {i : Nat} {first : PlaceholderSearch} {second : Nat → PlaceholderSearch}
    {found : KeyPlaceholder × Option PolicyNode}
    (written : (PlaceholderSearch.andThen i first second).written = some found) :
    first.written = some found ∨ ∃ j, (second j).written = some found := by
  rw [PlaceholderSearch.andThen] at written
  split at written
  · exact .inl written
  · exact .inr ⟨_, written⟩

theorem mem_leaves_of_written {placeholder : KeyPlaceholder} {script : PolicyNode} :
    (tree : PolicyTree) → (i : Nat) →
      (getKeyPlaceholderByIndexInTree tree i).written = some (placeholder, some script) →
        script ∈ tree.leaves
  | .leaf leaf, i, written => by
    simp only [getKeyPlaceholderByIndexInTree, Option.map_eq_some_iff, Prod.mk.injEq,
      Option.some.injEq] at written
    obtain ⟨_, _, -, rfl⟩ := written
    exact List.mem_singleton_self _
  | .branch left right, i, written => by
    rw [getKeyPlaceholderByIndexInTree] at written
    rw [PolicyTree.leaves]
    rcases written_andThen written with inLeft | ⟨j, inRight⟩
    · exact List.mem_append_left _ (mem_leaves_of_written left i inLeft)
    · exact List.mem_append_right _ (mem_leaves_of_written right j inRight)

/-- A placeholder that is found with a leaf is inside the tree of the policy. -/
theorem mem_leaves_of_found {key placeholder : KeyPlaceholder} {tree : PolicyTree}
    {script : PolicyNode} {i : Nat}
    (found : (getKeyPlaceholderByIndex (.tr key (some tree)) i).written =
      some (placeholder, some script)) : script ∈ tree.leaves := by
  rw [getKeyPlaceholderByIndex] at found
  rcases written_andThen found with inKey | ⟨j, inTree⟩
  · simp at inKey
  · exact mem_leaves_of_written tree j inTree

/-! ## Agreement of the hashes -/

section Agreement

variable {crypto : WalletCrypto} {access : KeyAccess σ ExtPubkey} {extPubkey : Nat → ExtPubkey}

/-- The data of a leaf that is hashed at a derivation. -/
def leafMessage (crypto : WalletCrypto) (access : KeyAccess σ ExtPubkey)
    (extPubkey : Nat → ExtPubkey) (wdi : WalletDerivationInfo) (tapleaf : PolicyNode) : Bytes :=
  let script := compiledBytes (keySource access extPubkey wdi) .tapscript tapleaf
  taggedMessage crypto tapleafTag (tapleafData (UInt16.ofNat script.length).toNat script)

theorem leaf_withinBounds (honest : Honest access extPubkey) (wdi : WalletDerivationInfo)
    {tapleaf : PolicyNode} {flags : Option MiniscriptFlags} (wellTyped : WellTyped tapleaf flags)
    (allowed : tapleaf.type ∈ fragmentWhitelist .tapscript) :
    ∀ node ∈ tapleaf.nodes, WithinBounds (keySource access extPubkey wdi) node :=
  withinBounds_of_childless wellTyped (childless_of_allowed (by decide) allowed)
    (honest.keyData_ne wdi)

/-- A computed hash of a leaf is the hash of the compiled leaf. -/
theorem tapleafHash_of_returns (honest : Honest access extPubkey) {wdi : WalletDerivationInfo}
    {tapleaf : PolicyNode} {flags : Option MiniscriptFlags} (wellTyped : WellTyped tapleaf flags)
    {client : σ} {result : Digest × σ}
    (returns : (computeTapleafHash crypto (scriptContext access wdi) tapleaf client).Returns
      (.ok result)) :
    result.1 = crypto.sha256 (leafMessage crypto access extPubkey wdi tapleaf) := by
  have compiled := fun client script => @compiled_of_internalScript σ (scriptContext access wdi) _
    .tapscript tapleaf (honest.derivesFrom wdi) (honest.derivable wdi)
    (leaf_withinBounds honest wdi wellTyped) client script
  obtain ⟨_, sizedReturns, rest⟩ := (Fuelled.returns_bind_ok (settled_internalScript client)
    (fun _ => (settled_internalScript _).bind fun _ => Fuelled.settled_pure _)).mp returns
  obtain ⟨_, hashedReturns, last⟩ :=
    (Fuelled.returns_bind_ok (settled_internalScript _) fun _ => Fuelled.settled_pure _).mp rest
  cases Fuelled.returns_pure.mp last
  rw [(compiled _ _ sizedReturns).2, (compiled _ _ hashedReturns).1]
  rfl

/-- The hash stored for a placeholder and an input is the one of the leaf in the output key, in
whatever states of the client they are computed. -/
def TapleafAgrees (crypto : WalletCrypto) (access : KeyAccess σ ExtPubkey) (isChange : Bool)
    (addressIndex : UInt32) (tapleaf : PolicyNode) (placeholder : KeyPlaceholder) : Prop :=
  ∀ client client' stored committed,
    (fillTaprootPlaceholderInfo crypto access isChange addressIndex tapleaf placeholder
      client).Returns (.ok stored) →
    (computeTapleafHash crypto (scriptContext access ⟨isChange, addressIndex⟩) tapleaf
      client').Returns (.ok committed) →
    stored.1 = committed.1

/-- The hash stored for a placeholder of a leaf agrees with the leaf in the output key if the branch
of the placeholder is not zero exactly for change addresses. If the leaf can be compiled and
its scripts for both kinds of addresses have different hashes, it agrees only then. -/
theorem tapleaf_agrees_iff {settings : TemplateSettings} {template : Bytes}
    {key placeholder : KeyPlaceholder} {tree : PolicyTree} {tapleaf : PolicyNode} {i : Nat}
    (accepted : parseDescriptorTemplate settings template = .ok (.tr key (some tree)))
    (found : (getKeyPlaceholderByIndex (.tr key (some tree)) i).written =
      some (placeholder, some tapleaf))
    (honest : Honest access extPubkey) (crypto : WalletCrypto) (isChange : Bool)
    (addressIndex : UInt32) :
    ((placeholderBranch isChange placeholder ≠ 0 ↔ isChange = true) →
        TapleafAgrees crypto access isChange addressIndex tapleaf placeholder) ∧
      (∀ _ : σ, LeafUsable (scriptContext access ⟨isChange, addressIndex⟩) tapleaf →
        leafMessage crypto access extPubkey ⟨true, addressIndex⟩ tapleaf ≠
            leafMessage crypto access extPubkey ⟨false, addressIndex⟩ tapleaf →
        CollisionFreeOn crypto.sha256 (Set.range fun change =>
            leafMessage crypto access extPubkey ⟨change, addressIndex⟩ tapleaf) →
        TapleafAgrees crypto access isChange addressIndex tapleaf placeholder →
          (placeholderBranch isChange placeholder ≠ 0 ↔ isChange = true)) := by
  obtain ⟨_, policyTyped⟩ := wellTyped_of_parseDescriptorTemplate accepted
  obtain ⟨_, wellTyped⟩ := policyTyped.leaf (mem_leaves_of_found found)
  have hashOf := fun wdi client result =>
    @tapleafHash_of_returns σ ExtPubkey crypto access extPubkey
    honest wdi tapleaf _ wellTyped client result
  have sameChange_iff : (placeholderBranch isChange placeholder ≠ 0 ↔ isChange = true) ↔
      decide (placeholderBranch isChange placeholder ≠ 0) = isChange := by
    rw [@Bool.eq_iff_iff (decide _), decide_eq_true_iff]
  rw [sameChange_iff]
  constructor
  · intro sameChange client client' stored committed storedReturns committedReturns
    rw [hashOf _ _ _ storedReturns, hashOf _ _ _ committedReturns, sameChange]
  · intro client usable differ collisionFree agrees
    -- What a usable leaf needs does not depend on the derivation, so both hashes are computed.
    have computed : ∀ wdi, Succeeds (computeTapleafHash crypto (scriptContext access wdi) tapleaf
        client) := fun wdi =>
      (succeeds_computeTapleafHash_iff (honest.derivesFrom wdi) (honest.derivable wdi) crypto
        (leaf_withinBounds honest wdi wellTyped) client).mpr usable
    obtain ⟨stored, storedReturns⟩ :=
      computed ⟨placeholderBranch isChange placeholder ≠ 0, addressIndex⟩
    obtain ⟨committed, committedReturns⟩ := computed ⟨isChange, addressIndex⟩
    have same := agrees _ _ _ _ storedReturns committedReturns
    rw [hashOf _ _ _ storedReturns, hashOf _ _ _ committedReturns] at same
    have sameMessage := collisionFree ⟨_, rfl⟩ ⟨_, rfl⟩ same
    by_contra otherChange
    cases isChange with
    | false =>
      rw [Bool.not_eq_false] at otherChange
      rw [otherChange] at sameMessage
      exact differ sameMessage
    | true =>
      rw [Bool.not_eq_true] at otherChange
      rw [otherChange] at sameMessage
      exact differ sameMessage.symm

end Agreement

/-! ## Sample leaves -/

/-- `tr(@0/**,pk(@1/<M;N>/*))` -/
def sampleLeafPolicy (first second : UInt32) : PolicyNode :=
  .tr ⟨0, 1, 0⟩ (some (.leaf (.withKey .pk ⟨first, second, 1⟩)))

/-- With the branches 0 and 1 the hashes agree, here at a change address. -/
theorem tapleaf_agrees_default : (placeholderBranch true ⟨0, 1, 1⟩ ≠ 0 ↔ true = true) ∧
      TapleafAgrees sampleCrypto sampleAccess true 3 (.withKey .pk ⟨0, 1, 1⟩) ⟨0, 1, 1⟩ := by
  have accepted : parseDescriptorTemplate sampleSettings
      ("tr(@0/**,pk(@1/**))".toList.map ascii) = .ok (sampleLeafPolicy 0 1) := by decide +kernel
  have sameBranch : placeholderBranch true ⟨0, 1, 1⟩ ≠ 0 ↔ true = true := by decide
  exact ⟨sameBranch, (@tapleaf_agrees_iff _ _ _ _ _ _ _ ⟨0, 1, 1⟩ _ _ 1 accepted
    (by decide +kernel) sampleAccess_honest sampleCrypto true 3).1 sameBranch⟩

/-- A hash function that keeps the start of the key of a leaf with one key. -/
def sampleLeafCrypto : WalletCrypto :=
  { sampleCrypto with sha256 := fun message => Digest.ofBytes (message.drop 67) }

/-- A policy with the branches 2 and 3 for the key of its leaf, at a receive address: the hash that
is stored for the key is that of the leaf of the change address. -/
theorem tapleaf_not_agrees :
    parseDescriptorTemplate sampleSettings ("tr(@0/**,pk(@1/<2;3>/*))".toList.map ascii) =
        .ok (sampleLeafPolicy 2 3) ∧
      (getKeyPlaceholderByIndex (sampleLeafPolicy 2 3) 1).written =
        some (⟨2, 3, 1⟩, some (.withKey .pk ⟨2, 3, 1⟩)) ∧
      ¬TapleafAgrees sampleLeafCrypto sampleAccess false 0 (.withKey .pk ⟨2, 3, 1⟩) ⟨2, 3, 1⟩ := by
  refine ⟨by decide +kernel, by decide +kernel, fun agrees => ?_⟩
  obtain ⟨stored, storedReturns, storedHash⟩ := @Fuelled.exists_returns_of_map ScriptFailure
    (Digest × Unit) Digest (fillTaprootPlaceholderInfo sampleLeafCrypto sampleAccess false 0
      (.withKey .pk ⟨2, 3, 1⟩) ⟨2, 3, 1⟩ ()) 3 Prod.fst
    (Digest.ofBytes (0 :: beBytes 31 1004001)) (by decide +kernel)
  obtain ⟨committed, committedReturns, committedHash⟩ := @Fuelled.exists_returns_of_map
    ScriptFailure (Digest × Unit) Digest (computeTapleafHash sampleLeafCrypto
      (scriptContext sampleAccess ⟨false, 0⟩) (.withKey .pk ⟨2, 3, 1⟩) ()) 3 Prod.fst
    (Digest.ofBytes (0 :: beBytes 31 1003001)) (by decide +kernel)
  have same := agrees _ _ _ _ storedReturns committedReturns
  rw [storedHash, committedHash] at same
  exact absurd same (by decide)

end LedgerSyscoin.Handler
