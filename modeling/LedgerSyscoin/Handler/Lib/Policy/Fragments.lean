import LedgerSyscoin.Handler.Lib.Policy.Multisig
import LedgerSyscoin.Handler.Lib.Policy.Run

/-!
# Compilation of the fragments

For each kind of node: with its children compiled as the recursive compilation
says, the stack compiler completes the node with the bytes of the node's own
script. The fragments with a command table share one argument, by induction over
the commands that remain.
-/

namespace LedgerSyscoin.Handler

open Foundation Common List

/-! ## Emitted bytes as script items -/

/-- The flags of a node that has inherited `v:` or not. -/
def vFlag (verify : Bool) : UInt8 := if verify then processorFlagV else 0

theorem take_leBytes {width size : Nat} (le : size ≤ width) (value : Nat) :
    (leBytes width value).take size = leBytes size value := by
  induction size generalizing width value with
  | zero => simp [leBytes]
  | succ size ih =>
    obtain ⟨width, rfl⟩ := Nat.exists_eq_succ_of_ne_zero (show width ≠ 0 by omega)
    simp [leBytes, ih (show size ≤ width by omega)]

theorem leBytes_four_append_zero {value : Nat} (fits : value < 2 ^ 32) :
    leBytes 4 value ++ [0] = leBytes 5 value := by
  have top : value / 256 / 256 / 256 / 256 = 0 := by omega
  simp [leBytes, top]

theorem outputPushU32_eq (n : UInt32) : outputPushU32 n = (pushInteger n).bytes := by
  unfold outputPushU32 pushInteger getPushScriptSize
  by_cases zero : n = 0
  · simp [zero, ScriptItem.bytes]
  by_cases small : n ≤ 16
  · simp [zero, small, ScriptItem.bytes]
  have notZero : n.toNat ≠ 0 := fun equal => zero (UInt32.toNat_inj.mp equal)
  have bounded := n.toNat_lt
  simp only [zero, small, if_false, ScriptItem.bytes, length_leBytes, UInt32.le_iff_toNat_le,
    UInt32.lt_iff_toNat_lt, UInt32.reduceToNat]
  by_cases oneByte : n.toNat ≤ 127
  · simp [oneByte, Nat.lt_succ_of_le oneByte, take_leBytes]
  by_cases twoBytes : n.toNat ≤ 32767
  · have notOne : ¬ n.toNat < 128 := by omega
    simp [oneByte, twoBytes, notOne, Nat.lt_succ_of_le twoBytes, take_leBytes]
  by_cases threeBytes : n.toNat ≤ 8388607
  · have notOne : ¬ n.toNat < 128 := by omega
    have notTwo : ¬ n.toNat < 32768 := by omega
    simp [oneByte, twoBytes, threeBytes, notOne, notTwo, Nat.lt_succ_of_le threeBytes, take_leBytes]
  have notOne : ¬ n.toNat < 128 := by omega
  have notTwo : ¬ n.toNat < 32768 := by omega
  have notThree : ¬ n.toNat < 8388608 := by omega
  by_cases fourBytes : n.toNat ≤ 2147483647
  · simp [oneByte, twoBytes, threeBytes, fourBytes, notOne, notTwo, notThree,
      Nat.lt_succ_of_le fourBytes, take_leBytes]
  · have notFour : ¬ n.toNat < 2147483648 := by omega
    simp only [oneByte, twoBytes, threeBytes, fourBytes, notOne, notTwo, notThree, notFour,
      if_false, leBytes_four_append_zero bounded]
    rfl

/-- The last opcode of a fragment under an inherited `v:`. -/
theorem outputOpV_eq (verify : Bool) (code : UInt8) :
    outputOpV (vFlag verify) code =
      Script.bytes (if verify then (ScriptItem.op code).verify else [.op code]) := by
  cases verify with
  | false => simp [outputOpV, vFlag, ScriptItem.bytes]
  | true =>
    have flagged : vFlag true &&& processorFlagV ≠ 0 := by decide
    rw [outputOpV, if_pos flagged, if_pos rfl, ScriptItem.verify]
    by_cases form : HasVerifyForm code
    · rw [if_pos form]
      exact if_pos form
    · rw [if_neg form]
      exact if_neg form

section

variable (keys : KeySource) (isTaproot : Bool)

/-- A node whose script ends in an opcode, as a VERIFY if asked for. -/
theorem bytes_compileFlagged_of_op (verify : Bool) (node : PolicyNode) (body : Script)
    (code : UInt8) (script : compile keys isTaproot node = body ++ [.op code]) :
    (compileFlagged keys isTaproot verify node).bytes =
      body.bytes ++ outputOpV (vFlag verify) code := by
  rw [outputOpV_eq, compileFlagged, script]
  cases verify with
  | false => simp
  | true => simp [Script.verify_append_op]

/-! ## Command tables -/

/-- The bytes a command stands for at a node, with the children compiled by recursion. -/
def commandBytes (node : PolicyNode) (verify : Bool) : Command → Bytes
  | .op data => [data]
  | .opV data => outputOpV (vFlag verify) data
  | .pushPk =>
    match node with
    | .withKey _ key => (ScriptItem.push (keys.keyData isTaproot key)).bytes
    | _ => []
  | .pushPkh =>
    match node with
    | .withKey _ key => (ScriptItem.push (keys.keyHash key)).bytes
    | _ => []
  | .pushUint32 =>
    match node with
    | .withUint32 _ n => (pushInteger n).bytes
    | _ => []
  | .pushHash20 =>
    match node with
    | .withHash160 _ h => (ScriptItem.push h.val).bytes
    | _ => []
  | .pushHash32 =>
    match node with
    | .withHash256 _ h => (ScriptItem.push h.val).bytes
    | _ => []
  | .processChild index =>
    match node.scripts[index]? with
    | some child => (compileFlagged keys isTaproot false child).bytes
    | none => []
  | .processChildV index =>
    match node.scripts[index]? with
    | some child => (compileFlagged keys isTaproot verify child).bytes
    | none => []
  | .processChildVV index =>
    match node.scripts[index]? with
    | some child => (compileFlagged keys isTaproot true child).bytes
    | none => []

end

variable {σ : Type} {ctx : ScriptContext σ} {scriptType : InternalScriptType} {keys : KeySource}

/-- The fragments of a script are all allowed, and it fits on a stack with room for `room` nodes
besides its root. -/
structure Supported (scriptType : InternalScriptType) (room : Nat) (node : PolicyNode) : Prop where
  allowed : ∀ inner ∈ node.nodes, inner.type ∈ fragmentWhitelist scriptType
  shallow : node.depth ≤ room + 1

/-- There is room for a child, and the child is supported there. -/
def ChildSupported (scriptType : InternalScriptType) (room : Nat) (child : PolicyNode) : Prop :=
  0 < room ∧ Supported scriptType (room - 1) child

/-- The child of a node is completed as the recursive compilation says. -/
def ChildCompletes (ctx : ScriptContext σ) (scriptType : InternalScriptType) (keys : KeySource)
    (room : Nat) (ok : Prop) (verify : Bool) (child : PolicyNode) : Prop :=
  (ok → 0 < room) ∧
    (0 < room → Completes ctx scriptType (room - 1) ⟨child, 0, 0, vFlag verify⟩
      (compileFlagged keys (scriptType = .tapscript) verify child).bytes ok
      (Supported scriptType (room - 1) child))

/-- A command fits a node: the node has the data the command uses, and the child it
processes is completed. -/
def CommandFits (ctx : ScriptContext σ) (scriptType : InternalScriptType) (keys : KeySource)
    (room : Nat) (ok : Prop) (node : PolicyNode) (verify : Bool) : Command → Prop
  | .op _ => True
  | .opV _ => True
  | .pushPk => ∃ token key, node = .withKey token key ∧ (ok → Derivable ctx key)
  | .pushPkh => ∃ token key, node = .withKey token key ∧ (ok → Derivable ctx key)
  | .pushUint32 => ∃ token n, node = .withUint32 token n
  | .pushHash20 => ∃ token h, node = .withHash160 token h
  | .pushHash32 => ∃ token h, node = .withHash256 token h
  | .processChild index => ∃ child, node.scripts[index]? = some child ∧
      ChildCompletes ctx scriptType keys room ok false child
  | .processChildV index => ∃ child, node.scripts[index]? = some child ∧
      ChildCompletes ctx scriptType keys room ok verify child
  | .processChildVV index => ∃ child, node.scripts[index]? = some child ∧
      ChildCompletes ctx scriptType keys room ok true child

/-- The child that a command processes is supported. -/
def CommandSupported (scriptType : InternalScriptType) (room : Nat) (node : PolicyNode) :
    Command → Prop
  | .processChild index | .processChildV index | .processChildVV index =>
    ∀ child, node.scripts[index]? = some child → ChildSupported scriptType room child
  | _ => True

theorem pushPubkey_eq (isTaproot : Bool) (key : KeyPlaceholder) :
    pushPubkey isTaproot (keys.pubkey key) =
      (ScriptItem.push (keys.keyData isTaproot key)).bytes := by
  have lengthEq := (keys.pubkey key).property
  cases isTaproot with
  | false | true => simp [pushPubkey, KeySource.keyData, ScriptItem.bytes, lengthEq]

section Commands

variable {room : Nat} {ok sound : Prop} {commands : List Command} {verify isTaproot : Bool}
  {node : NodeState} {token : KeyToken} {key : KeyPlaceholder}

/-- The processor executes the command its step points at. -/
theorem processGenericNode_of_getElem? {command : Command}
    (current : commands[node.step.toNat]? = some command) (client : σ) :
    processGenericNode ctx isTaproot commands node client =
      executeCommand ctx isTaproot node client command := by
  have within := (List.getElem?_eq_some_iff.mp current).1
  have notAfter : ¬ commands.length < node.step.toNat := by omega
  simp only [processGenericNode, notAfter, if_false, current]

/-- A command that emits bytes and goes to the next step. -/
def CommandYields (ctx : ScriptContext σ) (isTaproot : Bool) (node : NodeState)
    (command : Command) (action : Action) (bytes : Bytes) (ok : Prop) : Prop :=
  ∀ client, (executeCommand ctx isTaproot node client command = .error .failed ∧ ¬ ok) ∨
    ∃ client', executeCommand ctx isTaproot node client command = .ok ⟨action, bytes, client'⟩

theorem commandYields_pushPk (source : DerivesFrom ctx keys)
    (kind : node.policyNode = .withKey token key)
    (derivable : ok → Derivable ctx key) : CommandYields ctx isTaproot node .pushPk .next
      (ScriptItem.push (keys.keyData isTaproot key)).bytes ok := by
  intro client
  simp only [executeCommand, kind]
  exact emits_derived source derivable (fun _ => by simp only [pushPubkey_eq]) client

theorem commandYields_pushPkh (source : DerivesFrom ctx keys)
    (kind : node.policyNode = .withKey token key)
    (derivable : ok → Derivable ctx key) : CommandYields ctx isTaproot node .pushPkh .next
      (ScriptItem.push (keys.keyHash key)).bytes ok := by
  intro client
  simp only [executeCommand, kind]
  refine emits_derived source derivable (fun _ => ?_) client
  simp only [source.hash160, ScriptItem.bytes, KeySource.keyHash,
    (keys.hash160 (keys.pubkey key).val).property]
  rfl

/-- A node with a command table is completed from any of its steps on. The induction is
over the commands that remain. -/
theorem completes_commands (source : DerivesFrom ctx keys) {policyNode : PolicyNode}
    (allowed : policyNode.type ∈ fragmentWhitelist scriptType)
    (chosen : processorOf ctx (scriptType = .tapscript) policyNode.type =
      some (processGenericNode ctx (scriptType = .tapscript) commands))
    (short : commands.length < 256) {finished rest : List Command}
    (split : commands = finished ++ rest)
    (fits : ∀ command ∈ rest, CommandFits ctx scriptType keys room ok policyNode verify command)
    (holds : (∀ command ∈ rest, CommandSupported scriptType room policyNode command) → sound)
    (kind : node.policyNode = policyNode) (flagsEq : node.flags = vFlag verify)
    (stepEq : node.step.toNat = finished.length) : Completes ctx scriptType room node
      (rest.flatMap (commandBytes keys (scriptType = .tapscript) policyNode verify)) ok sound := by
  induction rest generalizing finished node with
  | nil =>
    rw [← kind] at allowed chosen
    refine completes_done allowed chosen (fun client => ?_) (holds (forall_mem_nil _))
    have atEnd : commands[node.step.toNat]? = none := by
      rw [stepEq, split, append_nil]
      exact getElem?_eq_none (le_refl _)
    have notAfter : ¬ commands.length < node.step.toNat := by
      rw [stepEq, split, append_nil]
      omega
    refine Or.inr ⟨client, ?_⟩
    simp only [processGenericNode, notAfter, if_false, atEnd]
    rfl
  | cons command rest ih =>
    have current : commands[node.step.toNat]? = some command := by
      rw [stepEq, split]
      simp
    have yieldsOf : ∀ {action bytes}, CommandYields ctx (scriptType = .tapscript) node command
        action bytes ok →
        Yields (processGenericNode ctx (scriptType = .tapscript) commands) node action bytes
          ok := by
      intro action bytes yields client
      rw [processGenericNode_of_getElem? current]
      exact yields client
    have nextStep : (node.step + 1).toNat = (finished ++ [command]).length := by
      have bound : finished.length + 1 < 256 := by
        rw [split] at short
        simp only [length_append, length_cons] at short
        omega
      rw [UInt8.toNat_add, stepEq, length_append, length_singleton]
      exact Nat.mod_eq_of_lt bound
    have restCompletes : ∀ emitted, CommandSupported scriptType room policyNode command →
        Completes ctx scriptType room (node.after emitted (node.step + 1))
          (rest.flatMap (commandBytes keys (scriptType = .tapscript) policyNode verify)) ok
          sound := by
      intro emitted supported
      have splitNext : commands = (finished ++ [command]) ++ rest := by
        rw [split, append_assoc, singleton_append]
      exact ih splitNext (fun other mem => fits other (mem_cons_of_mem _ mem))
        (fun others => holds (forall_mem_cons.mpr ⟨supported, others⟩)) kind flagsEq nextStep
    have nodeAllowed : node.policyNode.type ∈ fragmentWhitelist scriptType := by rwa [kind]
    have nodeChosen : processorOf ctx (scriptType = .tapscript) node.policyNode.type =
        some (processGenericNode ctx (scriptType = .tapscript) commands) := by rwa [kind]
    have simple : ∀ bytes, CommandSupported scriptType room policyNode command →
        CommandYields ctx (scriptType = .tapscript) node command .next bytes ok →
          Completes ctx scriptType room node
            (bytes ++
              rest.flatMap (commandBytes keys (scriptType = .tapscript) policyNode verify))
            ok sound := fun bytes supported yields =>
      completes_next nodeAllowed nodeChosen (yieldsOf yields) (restCompletes bytes supported)
    have pushing : ∀ child inherited, ChildCompletes ctx scriptType keys room ok inherited child →
        (ChildSupported scriptType room child →
          CommandSupported scriptType room policyNode command) →
        CommandYields ctx (scriptType = .tapscript) node command (.push child (vFlag inherited))
          [] ok → Completes ctx scriptType room node
            ((compileFlagged keys (scriptType = .tapscript) inherited child).bytes ++
              rest.flatMap (commandBytes keys (scriptType = .tapscript) policyNode verify))
            ok sound := fun child inherited completes supports yields =>
      completes_child nodeAllowed nodeChosen (yieldsOf yields) completes.1 completes.2
        fun positive supported => restCompletes _ (supports ⟨positive, supported⟩)
    have supportsFound : ∀ {index : Nat} {child : PolicyNode},
        policyNode.scripts[index]? = some child → ChildSupported scriptType room child →
          ∀ other, policyNode.scripts[index]? = some other →
            ChildSupported scriptType room other := by
      rintro index child found supported other isOther
      cases found.symm.trans isOther
      exact supported
    have commandFits := fits command mem_cons_self
    rw [flatMap_cons]
    cases command with
    | op data => exact simple [data] trivial fun client => Or.inr ⟨client, rfl⟩
    | opV data =>
      refine simple _ trivial fun client => Or.inr ⟨client, ?_⟩
      simp only [executeCommand, flagsEq, commandBytes]
    | pushPk =>
      obtain ⟨token, key, rfl, derivable⟩ := commandFits
      exact simple _ trivial (commandYields_pushPk source kind derivable)
    | pushPkh =>
      obtain ⟨token, key, rfl, derivable⟩ := commandFits
      exact simple _ trivial (commandYields_pushPkh source kind derivable)
    | pushUint32 =>
      obtain ⟨token, _, rfl⟩ := commandFits
      refine simple _ trivial fun client => Or.inr ⟨client, ?_⟩
      simp only [executeCommand, kind, outputPushU32_eq, commandBytes]
    | pushHash20 | pushHash32 =>
      obtain ⟨token, h, rfl⟩ := commandFits
      refine simple _ trivial fun client => Or.inr ⟨client, ?_⟩
      simp only [executeCommand, kind, commandBytes, ScriptItem.bytes, h.property]
      rfl
    | processChild index =>
      obtain ⟨child, found, completes⟩ := commandFits
      simp only [commandBytes, found]
      refine pushing child false completes (supportsFound found) fun client => Or.inr ⟨client, ?_⟩
      simp only [executeCommand, kind, found]
      rfl
    | processChildV index =>
      obtain ⟨child, found, completes⟩ := commandFits
      simp only [commandBytes, found]
      refine pushing child verify completes (supportsFound found) fun client => Or.inr ⟨client, ?_⟩
      simp only [executeCommand, kind, found, flagsEq]
    | processChildVV index =>
      obtain ⟨child, found, completes⟩ := commandFits
      have flagSet : vFlag verify ||| processorFlagV = vFlag true := by
        cases verify <;> rfl
      simp only [commandBytes, found]
      refine pushing child true completes (supportsFound found) fun client => Or.inr ⟨client, ?_⟩
      simp only [executeCommand, kind, found, flagsEq, flagSet]

end Commands

end LedgerSyscoin.Handler
