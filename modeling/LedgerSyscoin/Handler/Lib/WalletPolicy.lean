import LedgerSyscoin.Common.Wallet.Equality
import LedgerSyscoin.Common.Wallet.Header
import LedgerSyscoin.Common.Wallet.Template
import LedgerSyscoin.Handler.Lib.GetPreimage

/-!
# `read_and_parse_wallet_policy`

The header of a policy of version 2 has the hash and the length of the descriptor
template. The template is received as a preimage of the hash, but the length in the
header is parsed. It is that of the template if this is at least that long and no part
of it may be skipped; otherwise the bytes depend on the chunks or on what was in the
buffer before.
-/

namespace LedgerSyscoin.Handler

open Foundation Common Boilerplate List

variable {dc : DispatcherContext} {incoming : List Apdu} {prior : Bytes}

/-- What is read: the header, the bytes that were parsed as the template, and the policy; and the
preimage that was hashed, if the template was received from the client. -/
structure WalletPolicy where
  header : PolicyMapWalletHeader
  descriptorTemplate : Bytes
  policy : PolicyNode
  hashed : Bytes
  deriving DecidableEq

section Reading

variable {m : Type → Type} [Monad m] (getPreimage : Digest → Bytes → m Preimage)

/-- Parse the bytes in the template buffer that the header tells to parse. -/
def parseTemplateBuffer (target : Target) (layout : Layout) (header : PolicyMapWalletHeader)
    (policyMapDescriptorTemplate hashed : Bytes) : Option WalletPolicy :=
  let descriptorTemplate := policyMapDescriptorTemplate.take header.descriptorTemplateLen
  match parseDescriptorTemplate ⟨header.version, layout, maxWalletPolicyBytes target⟩
      descriptorTemplate with
  | .error _ => none
  | .ok policy => some ⟨header, descriptorTemplate, policy, hashed⟩

/-- Read a policy; `none` stands for the return value -1. The template buffer has some contents
before. -/
def readAndParseWalletPolicy (target : Target) (layout : Layout) (buf : Buffer)
    (policyMapDescriptorTemplate : Bytes) : m (Option WalletPolicy) :=
  match readWalletPolicyHeader target buf with
  | none => pure none
  | some (header, _) =>
    match header.template with
    | .text descriptorTemplate =>
      pure (parseTemplateBuffer target layout header
        (descriptorTemplate ++ policyMapDescriptorTemplate.drop descriptorTemplate.length) [])
    | .hashed _ descriptorTemplateSha256 => do
      let preimage ← getPreimage descriptorTemplateSha256 policyMapDescriptorTemplate
      if preimage.ret < 0 then return none
      return parseTemplateBuffer target layout header preimage.out preimage.hashed

end Reading

/-! ## What is parsed -/

variable {walletPolicy : WalletPolicy} {header : PolicyMapWalletHeader}

theorem header_of_parseTemplateBuffer {target : Target} {layout : Layout} {buffer hashed : Bytes}
    (parsed : parseTemplateBuffer target layout header buffer hashed = some walletPolicy) :
    walletPolicy.header = header ∧ walletPolicy.hashed = hashed ∧
      walletPolicy.descriptorTemplate = buffer.take header.descriptorTemplateLen ∧
      parseDescriptorTemplate ⟨header.version, layout, maxWalletPolicyBytes target⟩
        walletPolicy.descriptorTemplate = .ok walletPolicy.policy := by
  simp only [parseTemplateBuffer] at parsed
  split at parsed
  · cases parsed
  · rename_i policy accepted
    cases parsed
    exact ⟨rfl, rfl, rfl, accepted⟩

/-- The number of bytes of a template of the given length that are at the start of a template
buffer of size `cap`, however the template is cut into chunks. -/
def keptLength (cap length : Nat) : Nat :=
  if length ≤ cap then length else cap + 1 - maxChunkLength

/-- Whatever the chunks and the contents of the buffer before, the start of the output is the
start of the preimage. -/
theorem take_out_of_callGetPreimage {H : HashFunction} {hash : Digest} {out : Bytes}
    {outcome : Outcome Preimage}
    (run : callGetPreimage H hash out dc incoming = some outcome)
    (success : 0 ≤ outcome.result.ret) {count : Nat}
    (kept : count ≤ keptLength out.length outcome.result.hashed.length) :
    outcome.result.out.take count = outcome.result.hashed.take count := by
  obtain ⟨chunks, small, hashed, -, -, -, filled⟩ := callGetPreimage_success run success
  rcases Nat.eq_zero_or_pos count with rfl | _
  · rfl
  · rw [hashed, keptLength] at kept
    have start := @take_fillBuffer_eq (bufferCreate out) count chunks small
    simp only [bufferCreate, Nat.zero_add, take_zero, nil_append] at start
    rw [filled, hashed]
    split_ifs at kept with short
    · exact start kept (.inl short)
    · exact start (by omega) (.inr (by omega))

variable {outcome : Outcome (Option WalletPolicy)}

/-- Inversion of a successful run on a header of version 2. -/
theorem readAndParseWalletPolicy_success {H : HashFunction} {target : Target} {layout : Layout}
    {buf rest : Buffer} {descriptorTemplateLen : Nat} {descriptorTemplateSha256 : Digest}
    (read : readWalletPolicyHeader target buf = some (header, rest))
    (isHashed : header.template = .hashed descriptorTemplateLen descriptorTemplateSha256)
    (run : readAndParseWalletPolicy (callGetPreimage H) target layout buf prior dc incoming =
      some outcome)
    (success : outcome.result = some walletPolicy) :
    ∃ received, callGetPreimage H descriptorTemplateSha256 prior dc incoming = some received ∧
      0 ≤ received.result.ret ∧
      parseTemplateBuffer target layout header received.result.out received.result.hashed =
        some walletPolicy := by
  rw [readAndParseWalletPolicy, read] at run
  simp only [isHashed] at run
  obtain ⟨received, receivedRun, rest⟩ := Flow.bind_eq_some_iff.mp run
  split_ifs at rest with failed
  · cases Flow.pure_eq_some_iff.mp rest
    cases success
  · cases Flow.pure_eq_some_iff.mp rest
    exact ⟨received, receivedRun, not_lt.mp failed, success⟩

/-! ## Equivocation -/

/-- Any two executions on the same serialized header that succeed parse the same bytes to the same
policy, whatever the answers of the client and the contents of the template buffer before; `hashed`
are the byte strings that may be hashed. -/
def Unequivocal (H : HashFunction) (hashed : Set Bytes) (target : Target) (layout : Layout)
    (buf : Buffer) : Prop :=
  ∀ (prior prior' : Bytes) (dc dc' : DispatcherContext) (incoming incoming' : List Apdu)
    (outcome outcome' : Outcome (Option WalletPolicy)) (first second : WalletPolicy),
    prior.length = maxDescriptorTemplateLength target →
    prior'.length = maxDescriptorTemplateLength target →
    readAndParseWalletPolicy (callGetPreimage H) target layout buf prior dc incoming =
      some outcome → outcome.result = some first → first.hashed ∈ hashed →
    readAndParseWalletPolicy (callGetPreimage H) target layout buf prior' dc' incoming' =
      some outcome' → outcome'.result = some second → second.hashed ∈ hashed →
    first.descriptorTemplate = second.descriptorTemplate ∧ first.policy = second.policy

section Committed

variable {H : HashFunction} {hashed : Set Bytes} {target : Target} {layout : Layout}
  {buf rest : Buffer} {header : PolicyMapWalletHeader} {descriptorTemplateLen : Nat}
  {template : Bytes}

/-- The settings of the parser for a header. -/
def headerSettings (target : Target) (layout : Layout) (header : PolicyMapWalletHeader) :
    TemplateSettings :=
  ⟨header.version, layout, maxWalletPolicyBytes target⟩

/-- The parser accepts a template. -/
def Accepts (settings : TemplateSettings) (descriptorTemplate : Bytes) : Prop :=
  ∃ policy, parseDescriptorTemplate settings descriptorTemplate = .ok policy

theorem descriptorTemplateLen_of_commits
    (commits : header.template = .hashed descriptorTemplateLen (H template)) :
    header.descriptorTemplateLen = descriptorTemplateLen := by
  rw [PolicyMapWalletHeader.descriptorTemplateLen, commits]
  rfl

variable (collisionFree : CollisionFreeOn H hashed) (templateHashed : template ∈ hashed)
  (read : readWalletPolicyHeader target buf = some (header, rest))
  (commits : header.template = .hashed descriptorTemplateLen (H template))

include read commits

theorem descriptorTemplateLen_le_of_read :
    descriptorTemplateLen ≤ maxDescriptorTemplateLength target := by
  have fits := (valid_of_readWalletPolicyHeader read).template
  rw [commits] at fits
  exact le_trans fits (le_max_right _ _)

/-- If the header asks for more bytes than the template has, any accepted continuation of the
template can be in the buffer. -/
theorem exists_run_of_continuation {continuation : Bytes} (nonempty : template ≠ [])
    (fits : template.length ≤ maxDescriptorTemplateLength target)
    (length : template.length + continuation.length = descriptorTemplateLen)
    (accepted : Accepts (headerSettings target layout header) (template ++ continuation)) :
    ∃ prior incoming outcome walletPolicy, prior.length = maxDescriptorTemplateLength target ∧
      readAndParseWalletPolicy (callGetPreimage H) target layout buf prior .initial incoming =
        some outcome ∧ outcome.result = some walletPolicy ∧ walletPolicy.hashed = template ∧
      walletPolicy.descriptorTemplate = template ++ continuation := by
  have capLt : maxDescriptorTemplateLength target < 2 ^ 31 := by cases target <;> decide
  have lengthLe := descriptorTemplateLen_le_of_read read commits
  let prior : Bytes := replicate template.length 0 ++ (continuation ++
    replicate (maxDescriptorTemplateLength target - descriptorTemplateLen) 0)
  have priorLength : prior.length = maxDescriptorTemplateLength target := by
    simp only [prior, length_append, length_replicate]
    omega
  obtain ⟨incoming, received, run, _, hashedEq⟩ :=
    exists_callGetPreimage H nonempty (fits.trans_lt capLt) prior .initial
  have success : 0 ≤ received.result.ret := by omega
  obtain ⟨chunks, -, chunksEq, -, -, -, filled⟩ := callGetPreimage_success run success
  have out : received.result.out.take header.descriptorTemplateLen = template ++ continuation := by
    have flattenEq : chunks.flatten = template := chunksEq.symm.trans hashedEq
    rw [filled, bytes_fillBuffer_create (by rw [flattenEq, priorLength]; exact fits), flattenEq,
      drop_left' length_replicate, ← append_assoc,
      descriptorTemplateLen_of_commits commits]
    exact take_left' (by rw [length_append, length])
  obtain ⟨policy, parsed⟩ := accepted
  have parsesBuffer : parseTemplateBuffer target layout header received.result.out
      received.result.hashed = some ⟨header, template ++ continuation, policy,
        received.result.hashed⟩ := by
    rw [headerSettings] at parsed
    simp only [parseTemplateBuffer, out, parsed]
  refine ⟨prior, incoming, ⟨some _, received.dc, received.pending⟩,
    ⟨header, template ++ continuation, policy, received.result.hashed⟩, priorLength, ?_, rfl,
    hashedEq, rfl⟩
  rw [readAndParseWalletPolicy, read]
  simp only [commits]
  refine Flow.bind_eq_some_iff.mpr ⟨received, run, ?_⟩
  rw [if_neg (not_lt.mpr success), parsesBuffer]
  rfl

include collisionFree templateHashed

/-- What a successful execution parses, if the header commits to a template. -/
theorem parsed_of_success
    (run : readAndParseWalletPolicy (callGetPreimage H) target layout buf prior dc incoming =
      some outcome)
    (success : outcome.result = some walletPolicy) (policyHashed : walletPolicy.hashed ∈ hashed) :
    template ≠ [] ∧ parseDescriptorTemplate (headerSettings target layout header)
        walletPolicy.descriptorTemplate = .ok walletPolicy.policy ∧
      ∃ out : Bytes, out.length = prior.length ∧
        walletPolicy.descriptorTemplate = out.take descriptorTemplateLen ∧
        ∀ count ≤ keptLength prior.length template.length,
          out.take count = template.take count := by
  obtain ⟨received, receivedRun, receivedOk, parsed⟩ :=
    readAndParseWalletPolicy_success read commits run success
  obtain ⟨-, hashedEq, bytesEq, accepted⟩ := header_of_parseTemplateBuffer parsed
  obtain ⟨_, -, -, nonempty, hashEq, -, filled⟩ :=
    callGetPreimage_success receivedRun receivedOk
  have sameTemplate : received.result.hashed = template :=
    collisionFree (hashedEq ▸ policyHashed) templateHashed hashEq
  subst sameTemplate
  refine ⟨nonempty, accepted, received.result.out, ?_,
    descriptorTemplateLen_of_commits commits ▸ bytesEq, fun count kept =>
    take_out_of_callGetPreimage receivedRun receivedOk kept⟩
  rw [filled, length_fillBuffer]
  rfl

/-- The template is not equivocated if the length in the header is at most what is kept of the
template, however it is received. -/
theorem unequivocal_of_kept
    (kept : descriptorTemplateLen ≤
      keptLength (maxDescriptorTemplateLength target) template.length) :
    Unequivocal H hashed target layout buf := by
  intro prior prior' dc dc' incoming incoming' outcome outcome' first second priorLength
    priorLength' run success firstHashed run' success' secondHashed
  obtain ⟨-, firstParsed, _, -, firstBytes, firstKept⟩ :=
    parsed_of_success collisionFree templateHashed read commits run success firstHashed
  obtain ⟨-, secondParsed, _, -, secondBytes, secondKept⟩ :=
    parsed_of_success collisionFree templateHashed read commits run' success' secondHashed
  rw [firstKept _ (priorLength ▸ kept)] at firstBytes
  rw [secondKept _ (priorLength' ▸ kept)] at secondBytes
  have sameBytes := firstBytes.trans secondBytes.symm
  rw [sameBytes, secondParsed] at firstParsed
  exact ⟨sameBytes, (Except.ok.inj firstParsed).symm⟩

/-- If the header asks for more bytes than the template has, a continuation of it is parsed. -/
theorem continuation_of_success
    (fits : template.length ≤ maxDescriptorTemplateLength target)
    (short : template.length ≤ descriptorTemplateLen)
    (priorLength : prior.length = maxDescriptorTemplateLength target)
    (run : readAndParseWalletPolicy (callGetPreimage H) target layout buf prior dc incoming =
      some outcome)
    (success : outcome.result = some walletPolicy) (policyHashed : walletPolicy.hashed ∈ hashed) :
    template ≠ [] ∧ parseDescriptorTemplate (headerSettings target layout header)
        walletPolicy.descriptorTemplate = .ok walletPolicy.policy ∧
      ∃ continuation : Bytes, template.length + continuation.length = descriptorTemplateLen ∧
        walletPolicy.descriptorTemplate = template ++ continuation := by
  obtain ⟨nonempty, parsed, out, _, bytes, kept⟩ :=
    parsed_of_success collisionFree templateHashed read commits run success policyHashed
  have lengthLe := descriptorTemplateLen_le_of_read read commits
  have start := kept template.length (by rw [keptLength, if_pos (priorLength ▸ fits)])
  rw [take_length] at start
  have split : out = template ++ out.drop template.length := by
    rw [← start, length_take, Nat.min_eq_left (by omega), take_append_drop]
  refine ⟨nonempty, parsed, (out.drop template.length).take
    (descriptorTemplateLen - template.length), ?_, ?_⟩
  · rw [length_take, length_drop]
    omega
  · rw [bytes, split, take_append, take_of_length_le short, drop_left]

/-- If the template fits into the buffer, it is not equivocated exactly if the header asks for no
more bytes than it has, or only one continuation of it to this length is accepted; longer
templates are not if the header asks for no more than is kept of all of them. -/
theorem unequivocal_iff :
    (template.length ≤ maxDescriptorTemplateLength target →
      (Unequivocal H hashed target layout buf ↔
        template = [] ∨ descriptorTemplateLen ≤ template.length ∨
          ∀ continuation continuation' : Bytes,
            template.length + continuation.length = descriptorTemplateLen →
            template.length + continuation'.length = descriptorTemplateLen →
            Accepts (headerSettings target layout header) (template ++ continuation) →
            Accepts (headerSettings target layout header) (template ++ continuation') →
            continuation = continuation')) ∧
    (maxDescriptorTemplateLength target < template.length →
      descriptorTemplateLen + maxChunkLength ≤ maxDescriptorTemplateLength target + 1 →
        Unequivocal H hashed target layout buf) := by
  constructor
  · intro fits
    constructor
    · intro unequivocal
      by_cases nonempty : template = []
      · exact .inl nonempty
      · refine .inr (.inr fun continuation continuation' length length' accepted accepted' => ?_)
        obtain ⟨prior, incoming, outcome, first, priorLength, run, success, firstHashed,
          firstBytes⟩ := exists_run_of_continuation read commits nonempty fits length accepted
        obtain ⟨prior', incoming', outcome', second, priorLength', run', success', secondHashed,
          secondBytes⟩ := exists_run_of_continuation read commits nonempty fits length' accepted'
        have same := (unequivocal _ _ _ _ _ _ _ _ _ _ priorLength priorLength' run success
          (firstHashed ▸ templateHashed) run' success' (secondHashed ▸ templateHashed)).1
        rw [firstBytes, secondBytes] at same
        exact append_cancel_left same
    · intro condition
      rcases Nat.lt_or_ge template.length descriptorTemplateLen with short | long
      · intro prior prior' dc dc' incoming incoming' outcome outcome' first second priorLength
          priorLength' run success firstHashed run' success' secondHashed
        obtain ⟨nonempty, firstParsed, continuation, length, firstBytes⟩ :=
          continuation_of_success collisionFree templateHashed read commits fits short.le
            priorLength run success firstHashed
        obtain ⟨-, secondParsed, continuation', length', secondBytes⟩ :=
          continuation_of_success collisionFree templateHashed read commits fits short.le
            priorLength' run' success' secondHashed
        rcases condition with empty | long | unique
        · exact absurd empty nonempty
        · omega
        · obtain rfl := unique continuation continuation' length length'
            ⟨_, firstBytes ▸ firstParsed⟩ ⟨_, secondBytes ▸ secondParsed⟩
          rw [firstBytes] at firstParsed
          rw [secondBytes, firstParsed] at secondParsed
          exact ⟨firstBytes.trans secondBytes.symm, Except.ok.inj secondParsed⟩
      · refine unequivocal_of_kept collisionFree templateHashed read commits ?_
        rw [keptLength, if_pos fits]
        exact long
  · intro tooLong short
    refine unequivocal_of_kept collisionFree templateHashed read commits ?_
    rw [keptLength, if_neg (not_le.mpr tooLong)]
    omega

end Committed

/-! ## A truncated template -/

/-- The header of a policy with one key, the template length 10 and the hash of the given
template. -/
def sampleHeader (H : HashFunction) (template : Bytes) : PolicyMapWalletHeader :=
  ⟨[], .hashed 10 (H template), 1, Digest.ofNat 0⟩

/-- The bytes of a text. -/
def textBytes (text : String) : Bytes := text.toList.map ascii

def sampleTemplateHash : HashFunction := fun bytes => Digest.ofBytes bytes

/-- A client that sends the template in one answer. -/
def sampleTemplateAnswer (template : Bytes) : Apdu :=
  continueApdu 0 0 (UInt8.ofNat template.length :: UInt8.ofNat template.length :: template)

/-- A template buffer with the given start. -/
def samplePrior (start : Bytes) : Bytes := start ++ replicate (512 - start.length) 0

theorem length_samplePrior {start : Bytes} (fits : start.length ≤ 512) :
    (samplePrior start).length = maxDescriptorTemplateLength .larger := by
  rw [samplePrior, length_append, length_replicate, Nat.add_sub_cancel' fits]
  rfl

def sampleTemplateRun (template prior : Bytes) : Option (Outcome (Option WalletPolicy)) :=
  readAndParseWalletPolicy (callGetPreimage sampleTemplateHash) .larger deviceLayout
    (bufferCreate (sampleHeader sampleTemplateHash template).serialize) (samplePrior prior)
    .initial [sampleTemplateAnswer template]

theorem unequivocal_iff_pkh :
    (∃ outcome walletPolicy, sampleTemplateRun (textBytes "pkh(@0/**)") [] = some outcome ∧
        outcome.result = some walletPolicy) ∧
      Unequivocal sampleTemplateHash {textBytes "pkh(@0/**)"} .larger deviceLayout
        (bufferCreate (sampleHeader sampleTemplateHash (textBytes "pkh(@0/**)")).serialize) := by
  constructor
  · have results : (sampleTemplateRun (textBytes "pkh(@0/**)") []).map
        (fun outcome => outcome.result.map (·.policy)) =
          some (some (.withKey .pkh ⟨0, 1, 0⟩)) := by decide +kernel
    obtain ⟨outcome, run, resultEq⟩ := Option.map_eq_some_iff.mp results
    obtain ⟨walletPolicy, success, -⟩ := Option.map_eq_some_iff.mp resultEq
    exact ⟨outcome, walletPolicy, run, success⟩
  · have valid : (sampleHeader sampleTemplateHash (textBytes "pkh(@0/**)")).Valid .larger :=
      ⟨by decide, by decide, by decide⟩
    obtain ⟨rest, read, -⟩ := exists_readWalletPolicyHeader valid (bufferCreate _) []
      (by rw [Buffer.remaining_create, append_nil])
    exact ((unequivocal_iff (Set.injOn_singleton _ _) (Set.mem_singleton _) read rfl).1
      (by decide)).mpr (.inr (.inl (by decide)))

/-- The header commits to the first five bytes of a template of ten bytes: the others are those
that were in the buffer before. -/
theorem not_unequivocal_truncated :
    ¬Unequivocal sampleTemplateHash {textBytes "pkh(@"} .larger deviceLayout
      (bufferCreate (sampleHeader sampleTemplateHash (textBytes "pkh(@")).serialize) := by
  intro unequivocal
  have results : (["pkh(@0/**)", "pkh(@1/**)"].map fun prior =>
      (sampleTemplateRun (textBytes "pkh(@") (textBytes prior)).map
        (fun outcome => outcome.result.map fun walletPolicy =>
          (walletPolicy.policy, walletPolicy.hashed))) =
      [some (some (.withKey .pkh ⟨0, 1, 0⟩, textBytes "pkh(@")),
        some (some (.withKey .pkh ⟨0, 1, 1⟩, textBytes "pkh(@"))] := by decide +kernel
  simp only [map_cons, map_nil, List.cons.injEq, and_true] at results
  obtain ⟨outcome, run, resultEq⟩ := Option.map_eq_some_iff.mp results.1
  obtain ⟨first, success, firstEq⟩ := Option.map_eq_some_iff.mp resultEq
  obtain ⟨outcome', run', resultEq'⟩ := Option.map_eq_some_iff.mp results.2
  obtain ⟨second, success', secondEq⟩ := Option.map_eq_some_iff.mp resultEq'
  obtain ⟨firstPolicy, firstHashed⟩ := Prod.mk.inj firstEq
  obtain ⟨secondPolicy, secondHashed⟩ := Prod.mk.inj secondEq
  have same := (unequivocal _ _ _ _ _ _ _ _ _ _ (length_samplePrior (by decide))
    (length_samplePrior (by decide)) run success firstHashed run' success' secondHashed).2
  rw [firstPolicy, secondPolicy] at same
  cases same

end LedgerSyscoin.Handler
