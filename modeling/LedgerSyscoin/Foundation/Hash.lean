import LedgerSyscoin.Foundation.Bytes
import Mathlib.Data.List.Nodup
import Mathlib.Data.Set.Function

/-!
# Hash functions

A hash function is any map from byte strings to 32-byte digests. Such a map is
never injective, so collision freedom is always relative: it is injectivity on
the set of byte strings that are really hashed.
-/

namespace LedgerSyscoin.Foundation

/-- A 32-byte string. -/
abbrev Digest := { bs : Bytes // bs.length = 32 }

/-- A function from byte strings to digests. -/
abbrev HashFunction := Bytes → Digest

/-- No two of the byte strings in `hashed` collide. -/
def CollisionFreeOn (H : HashFunction) (hashed : Set Bytes) : Prop := Set.InjOn H hashed

theorem CollisionFreeOn.mono {H : HashFunction} {small large : Set Bytes}
    (collisionFree : CollisionFreeOn H large) (subset : small ⊆ large) :
    CollisionFreeOn H small :=
  Set.InjOn.mono subset collisionFree

/-- Finitely many byte strings with distinct digests are free of collisions. -/
theorem collisionFreeOn_of_nodup {H : HashFunction} {strings : List Bytes}
    (distinct : (strings.map H).Nodup) : CollisionFreeOn H {bs | bs ∈ strings} := by
  intro left leftMem right rightMem equal
  exact List.inj_on_of_nodup_map distinct leftMem rightMem equal

/-- The digest with the given bytes, cut or padded with zeros to its length. -/
def Digest.ofBytes (bs : Bytes) : Digest := ⟨(bs ++ List.replicate 32 0).take 32, by simp⟩

theorem Digest.ofBytes_val (digest : Digest) : Digest.ofBytes digest.val = digest := by
  apply Subtype.ext
  exact List.take_left' digest.property

theorem Digest.val_ofBytes {bs : Bytes} (length : bs.length = 32) : (Digest.ofBytes bs).val = bs :=
  List.take_left' length

/-- Digest with the given big-endian value. -/
def Digest.ofNat (value : Nat) : Digest := ⟨beBytes 32 value, length_beBytes 32 value⟩

/-- The hash function that agrees with a finite table of digests, given as
big-endian numbers, and is constantly zero elsewhere. -/
def tableHash (table : List (Bytes × Nat)) : HashFunction := fun input =>
  Digest.ofNat ((table.lookup input).getD 0)

end LedgerSyscoin.Foundation
