import LedgerSyscoin.Handler.Lib.Policy.Compile

/-!
# Runs of the script compiler

Rules for the compilation of one node on a stack of other nodes. A node is *completed*
when the loop, started with the node on top, either fails or pops it, having emitted the
bytes expected of it. The rules follow what a processor can do: be done, go to its next
step, or push a child.
-/

namespace LedgerSyscoin.Handler

open Foundation Common List

variable {σ : Type} {ctx : ScriptContext σ} {scriptType : InternalScriptType}
  {below : List NodeState} {output : Bytes}

/-- A processor called on a node emits the expected bytes and takes the expected action,
unless it fails, and it fails only if `ok` does not hold. -/
def Yields (processor : Processor σ) (node : NodeState) (action : Action) (bytes : Bytes)
    (ok : Prop) : Prop :=
  ∀ client, (processor node client = .error .failed ∧ ¬ ok) ∨
    ∃ client', processor node client = .ok ⟨action, bytes, client'⟩

/-- The node at a step of its compilation after the bytes it has emitted. -/
def NodeState.after (node : NodeState) (bytes : Bytes) (step : UInt8) : NodeState :=
  { node with length := node.length + UInt16.ofNat bytes.length, step := step }

/-- Started with `node` on top of a stack with room for `room` more nodes, the compiler
emits `bytes` and pops the node, unless it fails. It fails only if `ok` does not hold, and pops
the node only if `sound` holds. -/
def Completes (ctx : ScriptContext σ) (scriptType : InternalScriptType) (room : Nat)
    (node : NodeState) (bytes : Bytes) (ok sound : Prop) : Prop :=
  ∀ below output client, below.length + 1 + room = maxPolicyDepth →
    ∃ outcome, LoopEnds (scriptTurn ctx scriptType) ⟨node :: below, output, client⟩ outcome ∧
      ((outcome = .error .failed ∧ ¬ ok) ∨
        (sound ∧ ∃ client' step,
          outcome = .ok (stateStackPop (node.after bytes step) below (output ++ bytes) client')))

theorem NodeState.after_after (node : NodeState) (first second : Bytes) (step step' : UInt8) :
    (node.after first step).after second step' = node.after (first ++ second) step' := by
  simp only [NodeState.after, length_append, UInt16.ofNat_add, UInt16.add_assoc]

/-- A child that was pushed at a node and popped leaves the node after the child's bytes. -/
theorem stateStackPop_child (node : NodeState) (emitted childBytes : Bytes) (step : UInt8)
    (child : PolicyNode) (flags childStep : UInt8) (below : List NodeState) (output : Bytes)
    (client : σ) :
    stateStackPop ((⟨child, 0, 0, flags⟩ : NodeState).after childBytes childStep)
        (node.after emitted step :: below) output client =
      .inl ⟨node.after (emitted ++ childBytes) step :: below, output, client⟩ := by
  simp [stateStackPop, NodeState.after, UInt16.ofNat_add, UInt16.add_assoc]

theorem Completes.mono {room : Nat} {node : NodeState} {bytes : Bytes} {ok ok' sound : Prop}
    (completes : Completes ctx scriptType room node bytes ok sound) (weaker : ok' → ok) :
    Completes ctx scriptType room node bytes ok' sound := by
  intro below output client roomEq
  obtain ⟨outcome, ends, result⟩ := completes below output client roomEq
  refine ⟨outcome, ends, result.imp_left ?_⟩
  rintro ⟨failed, notOk⟩
  exact ⟨failed, fun holds => notOk (weaker holds)⟩

/-! ## Single turns -/

theorem scriptTurn_of_not_mem {node : NodeState}
    {client : σ} (outside : node.policyNode.type ∉ fragmentWhitelist scriptType) :
    scriptTurn ctx scriptType ⟨node :: below, output, client⟩ = .error .failed := by
  simp [scriptTurn, outside]

section Turn

variable {node : NodeState} {processor : Processor σ} {bytes emitted childBytes : Bytes}
  {ok sound childSound : Prop} {room : Nat} {child : PolicyNode} {flags : UInt8}

/-- A fragment outside the whitelist makes the compiler fail. -/
theorem completes_of_not_mem (outside : node.policyNode.type ∉ fragmentWhitelist scriptType)
    (notOk : ¬ ok) : Completes ctx scriptType room node bytes ok sound := by
  intro below output client _
  exact ⟨_, LoopEnds.turn (scriptTurn_of_not_mem outside), Or.inl ⟨rfl, notOk⟩⟩

variable (allowed : node.policyNode.type ∈ fragmentWhitelist scriptType)
  (chosen : processorOf ctx (scriptType = .tapscript) node.policyNode.type = some processor)

include allowed chosen

theorem scriptTurn_of_error {client : σ}
    {failure : ScriptFailure} (error : processor node client = .error failure) :
    scriptTurn ctx scriptType ⟨node :: below, output, client⟩ = .error failure := by
  simp only [scriptTurn, allowed, not_true_eq_false, if_false, chosen, error]
  rfl

/-- The processor is done with its node. -/
theorem completes_done (yields : Yields processor node .done bytes ok) (holds : sound) :
    Completes ctx scriptType room node bytes ok sound := by
  intro below output client _
  rcases yields client with ⟨error, notOk⟩ | ⟨client', result⟩
  · exact ⟨_, LoopEnds.turn (scriptTurn_of_error allowed chosen error), Or.inl ⟨rfl, notOk⟩⟩
  · refine ⟨_, LoopEnds.turn ?_, Or.inr ⟨holds, client', node.step, rfl⟩⟩
    simp only [scriptTurn, allowed, not_true_eq_false, if_false, chosen, result]
    rfl

/-- The processor goes to its next step, from which the node is completed. -/
theorem completes_next (yields : Yields processor node .next emitted ok)
    (rest : Completes ctx scriptType room (node.after emitted (node.step + 1)) bytes ok sound) :
    Completes ctx scriptType room node (emitted ++ bytes) ok sound := by
  intro below output client roomEq
  rcases yields client with ⟨error, notOk⟩ | ⟨client', result⟩
  · exact ⟨_, LoopEnds.turn (scriptTurn_of_error allowed chosen error), Or.inl ⟨rfl, notOk⟩⟩
  · have turn : scriptTurn ctx scriptType ⟨node :: below, output, client⟩ =
        .ok (.inl ⟨node.after emitted (node.step + 1) :: below, output ++ emitted, client'⟩) := by
      simp only [scriptTurn, allowed, not_true_eq_false, if_false, chosen, result]
      rfl
    obtain ⟨outcome, ends, final⟩ := rest below (output ++ emitted) client' roomEq
    refine ⟨outcome, ends.cons turn, final.imp_right ?_⟩
    rintro ⟨holds, client'', step, rfl⟩
    refine ⟨holds, client'', step, ?_⟩
    rw [NodeState.after_after, append_assoc]

/-- The processor pushes a child. After the child the node is completed from its next
step. Without room for the child the compiler fails. -/
theorem completes_push (yields : Yields processor node (.push child flags) emitted ok)
    (needsRoom : ok → 0 < room) (inner : 0 < room →
      Completes ctx scriptType (room - 1) ⟨child, 0, 0, flags⟩ childBytes ok childSound)
    (rest : 0 < room → childSound → Completes ctx scriptType room
      (node.after (emitted ++ childBytes) (node.step + 1)) bytes ok sound) :
    Completes ctx scriptType room node (emitted ++ childBytes ++ bytes) ok sound := by
  intro below output client roomEq
  rcases yields client with ⟨error, notOk⟩ | ⟨client', result⟩
  · exact ⟨_, LoopEnds.turn (scriptTurn_of_error allowed chosen error), Or.inl ⟨rfl, notOk⟩⟩
  have turnEq : scriptTurn ctx scriptType ⟨node :: below, output, client⟩ =
      (stateStackPush ⟨node.after emitted (node.step + 1) :: below, output ++ emitted, client'⟩
        child flags).map .inl := by
    simp only [scriptTurn, allowed, not_true_eq_false, if_false, chosen, result]
    rfl
  by_cases full : room = 0
  · have exhausted : (node.after emitted (node.step + 1) :: below).length ≥ maxPolicyDepth := by
      rw [length_cons]
      omega
    refine ⟨.error .failed, LoopEnds.turn ?_, Or.inl ⟨rfl, fun holds => ?_⟩⟩
    · rw [turnEq, stateStackPush, if_pos exhausted]
      rfl
    · have := needsRoom holds
      omega
  have turn : scriptTurn ctx scriptType ⟨node :: below, output, client⟩ =
      .ok (.inl ⟨⟨child, 0, 0, flags⟩ :: node.after emitted (node.step + 1) :: below,
        output ++ emitted, client'⟩) := by
    have hasRoom : ¬ (node.after emitted (node.step + 1) :: below).length ≥ maxPolicyDepth := by
      rw [length_cons]
      omega
    rw [turnEq, stateStackPush, if_neg hasRoom]
    rfl
  obtain ⟨_, childEnds, childResult⟩ :=
    inner (by omega) (node.after emitted (node.step + 1) :: below) (output ++ emitted) client'
      (by simp only [length_cons]; omega)
  rcases childResult with ⟨rfl, notOk⟩ | ⟨childHolds, client'', _, rfl⟩
  · exact ⟨_, childEnds.cons turn, Or.inl ⟨rfl, notOk⟩⟩
  rw [stateStackPop_child] at childEnds
  obtain ⟨outcome, ends, final⟩ :=
    rest (by omega) childHolds below (output ++ emitted ++ childBytes) client'' roomEq
  refine ⟨outcome, (childEnds.cons turn).trans ends, final.imp_right ?_⟩
  rintro ⟨holds, client''', step, rfl⟩
  refine ⟨holds, client''', step, ?_⟩
  rw [NodeState.after_after]
  simp only [append_assoc]

/-- The processor pushes a child without emitting bytes first. -/
theorem completes_child (yields : Yields processor node (.push child flags) [] ok)
    (needsRoom : ok → 0 < room) (inner : 0 < room →
      Completes ctx scriptType (room - 1) ⟨child, 0, 0, flags⟩ childBytes ok childSound)
    (rest : 0 < room → childSound →
      Completes ctx scriptType room (node.after childBytes (node.step + 1)) bytes ok sound) :
    Completes ctx scriptType room node (childBytes ++ bytes) ok sound := by
  rw [← nil_append childBytes] at rest
  have pushed := completes_push allowed chosen yields needsRoom inner rest
  rwa [nil_append] at pushed

end Turn

end LedgerSyscoin.Handler
