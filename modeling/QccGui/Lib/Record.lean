import QccGui.Lib.Bytes

/-!
# Packed records

A packed record is made of fields that follow each other without gaps, each at a fixed offset.

* `Field`, `pack`: a field with its offset and its bytes, and the bytes of a record.
* `Tiles`: the offsets are those of fields that follow each other.
* `slice_pack`: every field of a packed record is found at its offset.
* `pack_of_slices`: bytes that have every field of a record at its offset are that record.
-/

namespace Lib

/-- A field of a record. -/
structure Field where
  offset : Nat
  bytes : Bytes

/-- The bytes of a record. -/
def pack (fs : List Field) : Bytes := fs.flatMap Field.bytes

/-- The fields `fs` follow each other from the offset `a` up to the offset `b`. -/
def Tiles : List Field → Nat → Nat → Prop
  | [], a, b => a = b
  | f :: fs, a, b => f.offset = a ∧ Tiles fs (a + f.bytes.length) b

/-- The field is found at its offset. -/
def Field.In (f : Field) (raw : Bytes) : Prop := slice raw f.offset f.bytes.length = f.bytes

section

variable {fs : List Field} {f : Field} {a b : Nat} {raw rest : Bytes}

@[simp] theorem pack_nil : pack [] = [] := rfl

@[simp] theorem pack_cons : pack (f :: fs) = f.bytes ++ pack fs := List.flatMap_cons

theorem pack_length (h : Tiles fs a b) : a + (pack fs).length = b := by
  induction fs generalizing a with
  | nil => exact h
  | cons f fs ih =>
    rw [pack_cons, List.length_append, ← Nat.add_assoc]
    exact ih h.2

/-- Every field of a packed record is found at its offset. -/
theorem slice_pack (h : Tiles fs a b) (hf : f ∈ fs) :
    a ≤ f.offset ∧ slice (pack fs ++ rest) (f.offset - a) f.bytes.length = f.bytes := by
  induction fs generalizing a with
  | nil => exact absurd hf List.not_mem_nil
  | cons g fs ih =>
    obtain ⟨hg, ht⟩ := h
    rw [pack_cons, List.append_assoc]
    rcases List.mem_cons.1 hf with rfl | hf
    · refine ⟨hg.ge, ?_⟩
      rw [hg, Nat.sub_self, slice_append_left (by omega), slice_self rfl]
    · obtain ⟨hle, hs⟩ := ih ht hf
      refine ⟨by omega, ?_⟩
      rw [slice_append_right (by omega), Nat.sub_sub, hs]

theorem in_pack (h : Tiles fs 0 b) (hf : f ∈ fs) : f.In (pack fs ++ rest) :=
  (slice_pack h hf).2

/-- Bytes that have every field of a record at its offset are that record. -/
theorem pack_of_slices (h : Tiles fs a b) (hf : ∀ f ∈ fs, f.In raw) : pack fs = slice raw a (b - a) := by
  induction fs generalizing a with
  | nil =>
    obtain rfl : a = b := h
    rw [Nat.sub_self]
    rfl
  | cons g fs ih =>
    obtain ⟨rfl, ht⟩ := h
    have hrest := ih ht fun f hm => hf f (List.mem_cons_of_mem _ hm)
    have hlen := pack_length ht
    have hsplit : b - g.offset = g.bytes.length + (b - (g.offset + g.bytes.length)) := by omega
    rw [pack_cons, hrest, hsplit, slice, slice, List.take_add, List.drop_drop]
    congr 1
    exact (hf g List.mem_cons_self).symm

end

end Lib
