import LedgerSyscoin.Foundation.Bytes
import Mathlib.Data.List.Nodup

/-!
# Maps sorted by their keys

The clients commit to a map of byte strings by the lists of its keys and of its values,
in the order of the keys. Python sorts the pairs, Rust sorts them by their keys, and
JavaScript sorts the keys as hexadecimal strings and looks the values up. As no key
occurs twice, the lists are the same.
-/

namespace LedgerSyscoin.Client

open Foundation List

/-- A finite map of byte strings. -/
structure Mapping where
  entries : List (Bytes × Bytes)
  nodup : (entries.map Prod.fst).Nodup

def keyLe (first second : Bytes × Bytes) : Bool := first.1 ≤ second.1

/-- The entries in the order of their keys. -/
def Mapping.sorted (mapping : Mapping) : List (Bytes × Bytes) := mapping.entries.mergeSort keyLe

@[simp]
theorem length_sorted (mapping : Mapping) : mapping.sorted.length = mapping.entries.length :=
  length_mergeSort _

theorem pairwise_sorted (mapping : Mapping) :
    mapping.sorted.Pairwise fun first second => first.1 ≤ second.1 := by
  refine (pairwise_mergeSort ?_ ?_ mapping.entries).imp fun ordered => of_decide_eq_true ordered
  · intro first second third before after
    simp only [decide_eq_true_eq] at before after ⊢
    exact List.le_trans before after
  · intro first second
    simpa [keyLe] using List.le_total first.1 second.1

/-- There is only one list of the entries in the order of the keys. -/
theorem eq_sorted {mapping : Mapping} {entries : List (Bytes × Bytes)}
    (perm : entries.Perm mapping.entries)
    (ordered : entries.Pairwise fun first second => first.1 ≤ second.1) :
    entries = mapping.sorted := by
  refine List.Perm.eq_of_pairwise ?_ ordered (pairwise_sorted mapping)
    (perm.trans (mergeSort_perm _ _).symm)
  intro first second firstMem secondMem before after
  exact inj_on_of_nodup_map mapping.nodup (perm.mem_iff.mp firstMem)
    ((List.mergeSort_perm _ _).mem_iff.mp secondMem) (List.le_antisymm before after)

theorem nodup_sorted (mapping : Mapping) : (mapping.sorted.map Prod.fst).Nodup :=
  ((mergeSort_perm mapping.entries keyLe).map Prod.fst).nodup_iff.mpr mapping.nodup

/-- The keys are in strictly increasing order. -/
theorem pairwise_lt_sorted (mapping : Mapping) :
    (mapping.sorted.map Prod.fst).Pairwise (· < ·) := by
  have ordered : (mapping.sorted.map Prod.fst).Pairwise (· ≤ ·) :=
    pairwise_map.mpr (pairwise_sorted mapping)
  refine (ordered.and (nodup_sorted mapping)).imp fun both => ?_
  by_contra notBefore
  exact both.2 (List.le_antisymm both.1 (List.not_lt.mp notBefore))

/-- With distinct keys, looking up a key finds its only entry. -/
theorem lookup_eq_some_iff_mem {α β : Type} [BEq α] [LawfulBEq α] {entries : List (α × β)}
    (nodup : (entries.map Prod.fst).Nodup) {key : α} {value : β} :
    entries.lookup key = some value ↔ (key, value) ∈ entries := by
  constructor
  · intro found
    obtain ⟨before, after, split, -⟩ := lookup_eq_some_iff.mp found
    rw [split]
    exact mem_append_right before mem_cons_self
  · intro member
    obtain ⟨before, after, split⟩ := append_of_mem member
    rw [split, map_append, map_cons, nodup_append] at nodup
    refine lookup_eq_some_iff.mpr ⟨before, after, split, fun entry earlier => ?_⟩
    rw [bne_iff_ne]
    exact (nodup.2.2 entry.1 (mem_map_of_mem earlier) key mem_cons_self).symm

/-- Looking up the sorted keys gives the values in their order. -/
theorem mapM_lookup_sorted (mapping : Mapping) :
    (mapping.sorted.map Prod.fst).mapM (fun key => mapping.entries.lookup key) =
      some (mapping.sorted.map Prod.snd) := by
  have entriesOf : ∀ entry ∈ mapping.sorted, entry ∈ mapping.entries :=
    fun entry member => (mergeSort_perm _ _).mem_iff.mp member
  generalize mapping.sorted = listed at entriesOf
  induction listed with
  | nil => rfl
  | cons entry listed ih =>
    rw [forall_mem_cons] at entriesOf
    rw [map_cons, mapM_cons, (lookup_eq_some_iff_mem mapping.nodup).mpr entriesOf.1, ih entriesOf.2]
    rfl

/-- Sorting the keys alone. -/
theorem mergeSort_keys (mapping : Mapping) :
    (mapping.entries.map Prod.fst).mergeSort (fun key next => decide (key ≤ next)) =
      mapping.sorted.map Prod.fst := by
  have ordered : ((mapping.entries.map Prod.fst).mergeSort fun key next =>
      decide (key ≤ next)).Pairwise fun key next => decide (key ≤ next) = true := by
    refine pairwise_mergeSort (fun first second third before after => ?_) (fun first second => ?_) _
    · rw [decide_eq_true_eq] at before after ⊢
      exact List.le_trans before after
    · simpa using List.le_total first second
  refine List.Perm.eq_of_pairwise (fun first second _ _ => List.le_antisymm)
    (ordered.imp of_decide_eq_true) (pairwise_map.mpr (pairwise_sorted mapping)) ?_
  exact (mergeSort_perm _ _).trans ((mergeSort_perm _ _).map Prod.fst).symm

/-! ## Hexadecimal strings -/

def hexDigit (digit : Nat) : Char :=
  if digit < 10 then Char.ofNat (48 + digit) else Char.ofNat (87 + digit)

/-- The lower-case hexadecimal digits of a byte string. -/
def toHex : Bytes → List Char
  | [] => []
  | byte :: bytes => hexDigit (byte.toNat / 16) :: hexDigit (byte.toNat % 16) :: toHex bytes

theorem hexDigit_lt_iff {first second : Nat} (firstLt : first < 16) (secondLt : second < 16) :
    hexDigit first < hexDigit second ↔ first < second := by
  have all : ∀ first second : Fin 16,
      hexDigit first.val < hexDigit second.val ↔ first.val < second.val := by decide
  exact all ⟨first, firstLt⟩ ⟨second, secondLt⟩

theorem hexDigit_inj {first second : Nat} (firstLt : first < 16) (secondLt : second < 16) :
    hexDigit first = hexDigit second ↔ first = second := by
  have all : ∀ first second : Fin 16,
      hexDigit first.val = hexDigit second.val ↔ first.val = second.val := by decide
  exact all ⟨first, firstLt⟩ ⟨second, secondLt⟩

/-- Hexadecimal strings are ordered like the bytes that they encode. -/
theorem toHex_lt_iff (first second : Bytes) : toHex first < toHex second ↔ first < second := by
  induction first generalizing second with
  | nil =>
    cases second with
    | nil | cons byte second => simp [toHex]
  | cons byte first ih =>
    cases second with
    | nil => simp [toHex]
    | cons byte' second =>
      have byteLt := byte.toNat_lt
      have byteLt' := byte'.toNat_lt
      rw [toHex, toHex, cons_lt_cons_iff, cons_lt_cons_iff, cons_lt_cons_iff,
        ih, hexDigit_lt_iff (by omega) (by omega), hexDigit_lt_iff (by omega) (by omega),
        hexDigit_inj (by omega) (by omega), hexDigit_inj (by omega) (by omega),
        UInt8.lt_iff_toNat_lt, ← UInt8.toNat_inj]
      by_cases later : first < second
      · simp only [later, and_true]
        omega
      · simp only [later, and_false, or_false]
        omega

end LedgerSyscoin.Client
