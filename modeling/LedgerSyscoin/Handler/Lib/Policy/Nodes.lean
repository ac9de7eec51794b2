import Mathlib.Tactic.FinCases
import LedgerSyscoin.Handler.Lib.Policy.Processors

/-!
# Compilation of whole policies

By induction over the syntax tree: the stack compiler completes every node of a
policy with the bytes of the recursive compilation, unless it fails; and it fails
only if a fragment is not allowed, the stack is too small for the nesting depth or
a key cannot be derived.
-/

namespace LedgerSyscoin.Handler

open Foundation Common List

variable {σ : Type} {type : PolicyNodeType}

/-- The conditions under which a node has to be compiled with room for `room` more nodes
on the stack. -/
structure Compiles (ctx : ScriptContext σ) (scriptType : InternalScriptType) (room : Nat)
    (node : PolicyNode) : Prop where
  supported : ∀ inner ∈ node.nodes, inner.type ∈ fragmentWhitelist scriptType
  shallow : node.depth ≤ room + 1
  derivable : ∀ inner ∈ node.nodes, ∀ key ∈ inner.keyPlaceholders, Derivable ctx key

/-- The two bytes of the bitvector cover the keys, and the stale one holds no mark at the position
of a key. -/
def CleanMemory (ctx : ScriptContext σ) : PolicyNode → Prop
  | .multisig .sortedmultiA _ keyPlaceholders =>
    ∀ position < keyPlaceholders.length, marks [0, ctx.staleByte] position = false
  | _ => True

variable {ctx : ScriptContext σ} {scriptType : InternalScriptType} {keys : KeySource}
  {room : Nat}

theorem Compiles.child {node child : PolicyNode} (compiles : Compiles ctx scriptType room node)
    (mem : child ∈ node.children) : 0 < room ∧ Compiles ctx scriptType (room - 1) child := by
  have deeper := PolicyNode.depth_child_lt mem
  have positive := child.depth_pos
  have shallow := compiles.shallow
  refine ⟨by omega, ⟨fun inner innerMem => ?_, by omega, fun inner innerMem => ?_⟩⟩
  · exact compiles.supported inner (PolicyNode.nodes_child_subset mem innerMem)
  · exact compiles.derivable inner (PolicyNode.nodes_child_subset mem innerMem)

variable {node : PolicyNode}

theorem Compiles.allowed (compiles : Compiles ctx scriptType room node) :
    node.type ∈ fragmentWhitelist scriptType :=
  compiles.supported node node.mem_nodes_self

theorem Compiles.key (compiles : Compiles ctx scriptType room node)
    {key : KeyPlaceholder} (mem : key ∈ node.keyPlaceholders) : Derivable ctx key :=
  compiles.derivable node node.mem_nodes_self key mem

/-! ## The scripts of command tables -/

/-- A script that follows an inherited `v:` is not empty. -/
theorem compile_ne_nil_of_takesVerify {isTaproot : Bool} :
    ∀ {node : PolicyNode}, takesVerify node = true → compile keys isTaproot node ≠ []
  | .constant .zero, _ => by simp [compile, compileLeaf]
  | .constant .one, _ => by simp [compile, compileLeaf]
  | .withKey .pk _, _ => by simp [compile, compileLeaf]
  | .withKey .pkh _, _ => by simp [compile, compileLeaf]
  | .withUint32 _ _, _ => by simp [compile, compileLeaf]
  | .withHash256 _ _, _ => by simp [compile, compileLeaf]
  | .withHash160 _ _, _ => by simp [compile, compileLeaf]
  | .multisig token _ _, _ => by cases token <;> simp [compile, compileLeaf]
  | .wrapper token _, _ => by cases token <;> simp_all [compile, compileWrapper, takesVerify]
  | .withScript2 .andV _ second, takes => by
    have secondNonempty : compile keys isTaproot second ≠ [] := compile_ne_nil_of_takesVerify takes
    simp [compile, compileScript2, secondNonempty]
  | .withScript2 .andB _ _, _ => by simp [compile, compileScript2]
  | .withScript2 .andN _ _, _ => by simp [compile, compileScript2]
  | .withScript2 .orB _ _, _ => by simp [compile, compileScript2]
  | .withScript2 .orC _ _, _ => by simp [compile, compileScript2]
  | .withScript2 .orD _ _, _ => by simp [compile, compileScript2]
  | .withScript2 .orI _ _, _ => by simp [compile, compileScript2]
  | .andor _ _ _, _ => by simp [compile]
  | .thresh _ _, _ => by simp [compile]

section Tables

variable {isTaproot verify : Bool}

theorem bytes_compileFlagged_of_not_takesVerify
    (takes : verify = true → takesVerify node = true) (not : takesVerify node = false) :
    (compileFlagged keys isTaproot verify node).bytes = (compile keys isTaproot node).bytes := by
  cases verify with
  | false => rfl
  | true => simp [not] at takes

/-- The bytes of a command table are those of the node's script: its opcodes and pushes
around the scripts of its children, the last opcode in the form `v:` asks for. -/
theorem flatMap_commandBytes {commands : List Command}
    (table : commandsOf node.type = some commands)
    (takes : verify = true → takesVerify node = true) :
    commands.flatMap (commandBytes keys isTaproot node verify) =
      (compileFlagged keys isTaproot verify node).bytes := by
  cases node with
  | constant token =>
    cases token with
    | zero =>
      cases table
      rw [bytes_compileFlagged_of_op keys isTaproot verify _ [] op0 rfl]
      simp [commands0, commandBytes]
    | one =>
      cases table
      rw [bytes_compileFlagged_of_op keys isTaproot verify _ [] op1 rfl]
      simp [commands1, commandBytes]
  | withKey token key =>
    cases token with
    | pkK | pkH =>
      cases table
      rw [bytes_compileFlagged_of_not_takesVerify takes rfl]
      rfl
    | pk =>
      cases table
      rw [bytes_compileFlagged_of_op keys isTaproot verify _
        [.push (keys.keyData isTaproot key)] opChecksig rfl]
      simp [commandsPk, commandBytes]
    | pkh | wpkh => cases table
  | withUint32 token n =>
    rw [bytes_compileFlagged_of_op keys isTaproot verify _ [pushInteger n] (timelockOpcode token)
      rfl]
    cases token <;> cases table <;>
      simp [commandsOlder, commandsAfter, commandBytes, timelockOpcode]
  | withHash256 token h =>
    rw [bytes_compileFlagged_of_op keys isTaproot verify _
      [.op opSize, pushInteger 32, .op opEqualverify, .op (hash256Opcode token), .push h.val]
      opEqual rfl]
    cases token <;> cases table <;> simp [commandsSha256, commandsHash256, commandsHash,
      commandBytes, hash256Opcode, ScriptItem.bytes, pushInteger, getPushScriptSize, leBytes]
  | withHash160 token h =>
    rw [bytes_compileFlagged_of_op keys isTaproot verify _
      [.op opSize, pushInteger 32, .op opEqualverify, .op (hash160Opcode token), .push h.val]
      opEqual rfl]
    cases token <;> cases table <;> simp [commandsRipemd160, commandsHash160, commandsHash,
      commandBytes, hash160Opcode, ScriptItem.bytes, pushInteger, getPushScriptSize, leBytes]
  | wrapper token script =>
    cases token with
    | a | s | v =>
      cases table
      rw [bytes_compileFlagged_of_not_takesVerify takes rfl]
      simp [commandsA, commandsS, commandsV, commandBytes, PolicyNode.scripts, compileFlagged,
        compile, compileWrapper, ScriptItem.bytes]
    | u =>
      cases table
      rw [bytes_compileFlagged_of_op keys isTaproot verify _
        ([.op opIf] ++ compile keys isTaproot script ++ [.op opElse, .op op0]) opEndif
        (by simp [compile, compileWrapper])]
      simp [commandsU, commandBytes, PolicyNode.scripts, compileFlagged, ScriptItem.bytes]
    | c | t | d | j | n | l =>
      cases table
      rw [bytes_compileFlagged_of_op keys isTaproot verify (.wrapper _ script) _ _ rfl]
      simp [commandsC, commandsT, commandsD, commandsJ, commandsN, commandsL, commandBytes,
        PolicyNode.scripts, compileFlagged, ScriptItem.bytes]
  | withScript2 token first second =>
    cases token with
    | andV =>
      cases table
      cases verify with
      | false =>
        simp [commandsAndV, commandBytes, PolicyNode.scripts, compileFlagged, compile,
          compileScript2]
      | true =>
        have nonempty : compile keys isTaproot second ≠ [] :=
          compile_ne_nil_of_takesVerify (takes rfl)
        simp [commandsAndV, commandBytes, PolicyNode.scripts, compileFlagged, compile,
          compileScript2, Script.verify_append _ nonempty]
    | andB | andN | orB | orC | orD | orI =>
      cases table
      rw [bytes_compileFlagged_of_op keys isTaproot verify (.withScript2 _ first second) _ _ rfl]
      simp [commandsAndB, commandsAndN, commandsOrB, commandsOrC, commandsOrD, commandsOrI,
        commandBytes, PolicyNode.scripts, compileFlagged, ScriptItem.bytes]
  | andor first second third =>
    cases table
    rw [bytes_compileFlagged_of_op keys isTaproot verify (.andor first second third) _ _ rfl]
    simp [commandsAndor, commandBytes, PolicyNode.scripts, compileFlagged, ScriptItem.bytes]
  | multisig token k placeholders => cases token <;> cases table
  | thresh k scriptlist | sh script | wsh script | tr key tree => cases table

end Tables

/-! ## The induction -/

/-- The children of a node are completed as they have to be for the node. -/
def ChildrenComplete (ctx : ScriptContext σ) (scriptType : InternalScriptType) (keys : KeySource)
    (room : Nat) (node : PolicyNode) : Prop :=
  ∀ child ∈ node.children, ∀ verify, (verify = true → takesVerify child = true) →
    ChildCompletes ctx scriptType keys room (Compiles ctx scriptType room node) verify child

/-- A node is supported if its own fragment is allowed and its children are supported. -/
theorem supported_of_children (allowed : node.type ∈ fragmentWhitelist scriptType)
    (each : ∀ child ∈ node.children, ChildSupported scriptType room child) :
    Supported scriptType room node := by
  constructor
  · intro inner mem
    rcases PolicyNode.mem_nodes_iff.mp mem with rfl | ⟨child, childMem, innerMem⟩
    · exact allowed
    · exact (each child childMem).2.allowed inner innerMem
  · refine PolicyNode.depth_le_of_children fun child mem => ?_
    obtain ⟨_, supported⟩ := each child mem
    have := supported.shallow
    omega

section Kinds

variable (source : DerivesFrom ctx keys) {node : PolicyNode} {verify : Bool}
  (allowed : node.type ∈ fragmentWhitelist scriptType)

include source allowed

/-- A node with a command table is completed if its commands fit. -/
theorem completes_table {commands : List Command} (table : commandsOf node.type = some commands)
    (fits : ∀ command ∈ commands, CommandFits ctx scriptType keys room
      (Compiles ctx scriptType room node) node verify command)
    (covers : (∀ command ∈ commands, CommandSupported scriptType room node command) →
      ∀ child ∈ node.children, ChildSupported scriptType room child)
    (bytesEq : commands.flatMap (commandBytes keys (scriptType = .tapscript) node verify) =
      (compileFlagged keys (scriptType = .tapscript) verify node).bytes) :
    Completes ctx scriptType room ⟨node, 0, 0, vFlag verify⟩
      (compileFlagged keys (scriptType = .tapscript) verify node).bytes
      (Compiles ctx scriptType room node) (Supported scriptType room node) := by
  have chosen : processorOf ctx (scriptType = .tapscript) node.type =
      some (processGenericNode ctx (scriptType = .tapscript) commands) := by
    cases kind : node.type <;> rw [kind] at table <;> cases table <;> rfl
  have short : commands.length < 256 := by
    cases kind : node.type <;> rw [kind] at table <;> cases table <;> decide
  rw [← bytesEq]
  exact completes_commands source allowed chosen short (nil_append commands).symm fits
    (fun supported => supported_of_children allowed (covers supported)) rfl rfl rfl

end Kinds

/-! ### Commands fit their nodes -/

section Fits

variable {node : PolicyNode} {verify : Bool} {commands : List Command}

/-- The commands of a node push data the node has, and process its children as they have to be. -/
theorem commandFits (inner : ChildrenComplete ctx scriptType keys room node)
    (bounds : WithinBounds keys node) (takes : verify = true → takesVerify node = true)
    (table : commandsOf node.type = some commands) :
    ∀ command ∈ commands, CommandFits ctx scriptType keys room
      (Compiles ctx scriptType room node) node verify command := by
  have plain : ∀ child ∈ node.children, ChildCompletes ctx scriptType keys room
      (Compiles ctx scriptType room node) false child :=
    fun child mem => inner child mem false nofun
  intro command mem
  cases node with
  | constant token => cases token <;> cases table <;> fin_cases mem <;> trivial
  | withKey token key =>
    have derivable : Compiles ctx scriptType room (.withKey token key) → Derivable ctx key :=
      fun compiles => compiles.key (mem_singleton_self key)
    cases token <;> cases table <;> fin_cases mem <;>
      first | trivial | exact ⟨_, key, rfl, derivable⟩
  | withUint32 token n =>
    cases token <;> cases table <;> fin_cases mem <;> first | trivial | exact ⟨_, n, rfl⟩
  | withHash256 token h | withHash160 token h =>
    cases token <;> cases table <;> fin_cases mem <;> first | trivial | exact ⟨_, h, rfl⟩
  | wrapper token script =>
    have mem' := mem_singleton_self script
    cases token with
    | v =>
      cases table
      fin_cases mem
      exact ⟨script, rfl, inner script mem' true fun _ => bounds⟩
    | _ =>
      cases table
      fin_cases mem <;> first | trivial | exact ⟨script, rfl, plain script mem'⟩
  | withScript2 token first second =>
    have firstPlain := plain first mem_cons_self
    have secondMem := mem_cons_of_mem first (mem_singleton_self second)
    cases token with
    | andV =>
      cases table
      fin_cases mem
      · exact ⟨first, rfl, firstPlain⟩
      · exact ⟨second, rfl, inner second secondMem verify takes⟩
    | _ =>
      cases table
      fin_cases mem <;> first
        | trivial | exact ⟨first, rfl, firstPlain⟩ | exact ⟨second, rfl, plain second secondMem⟩
  | andor first second third =>
    simp only [PolicyNode.children, PolicyNode.scripts, forall_mem_cons] at plain
    obtain ⟨firstPlain, secondPlain, thirdPlain, _⟩ := plain
    cases table
    fin_cases mem <;> first
      | trivial | exact ⟨first, rfl, firstPlain⟩ | exact ⟨second, rfl, secondPlain⟩
      | exact ⟨third, rfl, thirdPlain⟩
  | multisig token k placeholders => cases token <;> cases table
  | thresh k scriptlist | sh script | wsh script | tr key tree => cases table

/-- The commands of a node process every child. -/
theorem covers_children (table : commandsOf node.type = some commands)
    (supported : ∀ command ∈ commands, CommandSupported scriptType room node command) :
    ∀ child ∈ node.children, ChildSupported scriptType room child := by
  cases node with
  | wrapper token script =>
    refine forall_mem_singleton.mpr ?_
    cases token with
    | v =>
      cases table
      exact supported (.processChildVV 0) (by decide) script rfl
    | _ =>
      cases table
      exact supported (.processChild 0) (by decide) script rfl
  | withScript2 token first second =>
    refine forall_mem_cons.mpr ⟨?_, forall_mem_singleton.mpr ?_⟩
    · cases token <;> cases table <;> exact supported (.processChild 0) (by decide) first rfl
    · cases token with
      | andV =>
        cases table
        exact supported (.processChildV 1) (by decide) second rfl
      | _ =>
        cases table
        exact supported (.processChild 1) (by decide) second rfl
  | andor first second third =>
    cases table
    exact forall_mem_cons.mpr ⟨supported (.processChild 0) (by decide) first rfl,
      forall_mem_cons.mpr ⟨supported (.processChild 1) (by decide) second rfl,
        forall_mem_singleton.mpr (supported (.processChild 2) (by decide) third rfl)⟩⟩
  | thresh k scriptlist | sh script | wsh script => cases table
  | _ => exact forall_mem_nil _

end Fits

/-! ### All kinds of nodes -/

theorem ne_topLevel_of_allowed
    (allowed : type ∈ fragmentWhitelist scriptType) : type ≠ .sh ∧ type ≠ .wsh ∧ type ≠ .tr := by
  cases scriptType <;> fin_cases allowed <;> decide

theorem eq_tapscript_of_allowed (allowed : type ∈ fragmentWhitelist scriptType)
    (isMultiA : type = .multiA ∨ type = .sortedmultiA) : scriptType = .tapscript := by
  rcases isMultiA with rfl | rfl <;> revert allowed <;> cases scriptType <;> decide

theorem bytes_compileFlagged_thresh (isTaproot verify : Bool) (k : Nat)
    (scriptlist : List PolicyNode) :
    (compileFlagged keys isTaproot verify (.thresh k scriptlist)).bytes =
      threshBytes scriptlist.length
        ((pushInteger (UInt32.ofNat k)).bytes ++ outputOpV (vFlag verify) opEqual) 0
        (scriptlist.map fun child => (compile keys isTaproot child).bytes) := by
  have compiled : compile keys isTaproot (.thresh k scriptlist) =
      addScripts (scriptlist.map (compile keys isTaproot)) ++ [pushInteger (UInt32.ofNat k)] ++
        [.op opEqual] := by
    simp [compile, compileList_eq_map]
  have total := threshBytes_zero (scriptlist.map (compile keys isTaproot))
    ((pushInteger (UInt32.ofNat k)).bytes ++ outputOpV (vFlag verify) opEqual)
  rw [length_map, map_map] at total
  rw [bytes_compileFlagged_of_op keys isTaproot verify _ _ _ compiled]
  simpa [Function.comp_def] using total.symm

/-- The stack compiler completes every node with the bytes of the recursive compilation. -/
theorem completes_node (source : DerivesFrom ctx keys) (node : PolicyNode) :
    (∀ inner ∈ node.nodes, WithinBounds keys inner) →
      (scriptType = .tapscript → ∀ inner ∈ node.nodes, CleanMemory ctx inner) →
        ∀ (room : Nat) (verify : Bool), (verify = true → takesVerify node = true) →
          Completes ctx scriptType room ⟨node, 0, 0, vFlag verify⟩
            (compileFlagged keys (scriptType = .tapscript) verify node).bytes
            (Compiles ctx scriptType room node) (Supported scriptType room node) := by
  induction node using PolicyNode.induction with
  | step node ih =>
    intro bounds clean room verify takes
    have inner : ChildrenComplete ctx scriptType keys room node := by
      intro child mem childVerify childTakes
      have subset := PolicyNode.nodes_child_subset mem
      have completes := ih child mem (fun other otherMem => bounds other (subset otherMem))
        (fun isTap other otherMem => clean isTap other (subset otherMem)) (room - 1) childVerify
        childTakes
      exact ⟨fun compiles => (compiles.child mem).1,
        fun _ => completes.mono fun compiles => (compiles.child mem).2⟩
    have nodeBounds := bounds node node.mem_nodes_self
    by_cases allowed : node.type ∈ fragmentWhitelist scriptType
    case neg => exact completes_of_not_mem allowed fun compiles => allowed compiles.allowed
    cases table : commandsOf node.type with
    | some commands =>
      exact completes_table source allowed table (commandFits inner nodeBounds takes table)
        (covers_children table) (flatMap_commandBytes table takes)
    | none =>
    cases node with
    | withKey token key =>
      have isHash : token = .pkh ∨ token = .wpkh := by
        cases token <;> simp_all [commandsOf, PolicyNode.type, KeyToken.type]
      have chosen : processorOf ctx (scriptType = .tapscript) token.type =
          some (processPkhWpkhNode ctx) := by
        rcases isHash with rfl | rfl <;> rfl
      exact completes_done allowed chosen (yields_processPkhWpkhNode source isHash verify takes
          fun compiles => compiles.key (mem_singleton_self key))
        (supported_of_children allowed (forall_mem_nil _))
    | multisig token k placeholders =>
      have derivable : Compiles ctx scriptType room (.multisig token k placeholders) →
          ∀ key ∈ placeholders, Derivable ctx key :=
        fun compiles key mem => compiles.key mem
      by_cases isMulti : token = .multi ∨ token = .sortedmulti
      · have chosen : processorOf ctx (scriptType = .tapscript) token.type =
            some (processMultiSortedmultiNode ctx) := by
          rcases isMulti with rfl | rfl <;> rfl
        exact completes_done allowed chosen (yields_processMultiSortedmultiNode source
          nodeBounds isMulti _ verify derivable)
          (supported_of_children allowed (forall_mem_nil _))
      · have isMultiA : token = .multiA ∨ token = .sortedmultiA := by
          cases token <;> simp_all
        have chosen : processorOf ctx (scriptType = .tapscript) token.type =
            some (processMultiASortedmultiANode ctx) := by
          rcases isMultiA with rfl | rfl <;> rfl
        have isTap : scriptType = .tapscript :=
          eq_tapscript_of_allowed allowed (by rcases isMultiA with rfl | rfl <;> simp [
            PolicyNode.type, MultisigToken.type])
        have clear : token = .sortedmultiA → ∀ position < placeholders.length,
            marks [0, ctx.staleByte] position = false := by
          rintro rfl
          exact clean isTap _ (PolicyNode.mem_nodes_self _)
        exact completes_done allowed chosen (yields_processMultiASortedmultiANode source
          nodeBounds isMultiA clear _ verify derivable)
          (supported_of_children allowed (forall_mem_nil _))
    | thresh k scriptlist =>
      rw [bytes_compileFlagged_thresh]
      exact completes_thresh allowed nodeBounds (nil_append scriptlist).symm
        (fun child mem => inner child mem false nofun)
        (supported_of_children allowed) rfl rfl rfl
    | sh script => exact absurd rfl (ne_topLevel_of_allowed allowed).1
    | wsh script => exact absurd rfl (ne_topLevel_of_allowed allowed).2.1
    | tr key tree => exact absurd rfl (ne_topLevel_of_allowed allowed).2.2
    | andor first second third => cases table
    | constant token | withUint32 token | withHash256 token | withHash160 token | wrapper token
    | withScript2 token => cases token <;> cases table

end LedgerSyscoin.Handler
