import RecordPrivacy.Bytes

/-! Groups of bytes, and bytes combined.

Cut into groups of one size, bytes are their first group and the groups of the rest (`chunks_eq`);
all groups are whole if the size divides the length. Combining with the same bytes a second time
undoes the first (`xor_xor`). -/
namespace RecordPrivacy.Bytes
variable {size : Nat} {bytes rest : Bytes}

/-! ### Groups -/

@[simp] theorem chunks_nil : chunks size [] = [] := by rw [chunks]

theorem chunks_eq (positive : 0 < size) (nonempty : bytes ≠ []) :
    chunks size bytes = bytes.take size :: chunks size (bytes.drop size) := by
  obtain ⟨n, rfl⟩ : ∃ n, size = n + 1 := ⟨size - 1, by omega⟩
  cases bytes with
  | nil => exact absurd rfl nonempty
  | cons b rest => rw [chunks, Nat.add_sub_cancel, List.take_succ_cons, List.drop_succ_cons]

/-- Groups of bytes that can be cut into whole groups. -/
theorem chunks_whole (positive : 0 < size) (count : Nat) (h : bytes.length = size * count) :
    (chunks size bytes).length = count ∧ ∀ group ∈ chunks size bytes, group.length = size := by
  induction count generalizing bytes with
  | zero =>
    obtain rfl : bytes = [] := List.eq_nil_of_length_eq_zero (by simpa using h)
    simp
  | succ count ih =>
    rw [Nat.mul_add, Nat.mul_one] at h
    have hne : bytes ≠ [] := by
      rintro rfl
      simp only [List.length_nil] at h
      omega
    have hrest : (bytes.drop size).length = size * count := by
      rw [List.length_drop]
      omega
    obtain ⟨hcount, hgroups⟩ := ih hrest
    rw [chunks_eq positive hne]
    refine ⟨by rw [List.length_cons, hcount], List.forall_mem_cons.mpr ⟨?_, hgroups⟩⟩
    exact List.length_take_of_le (by omega)

/-! ### Combination -/

@[simp] theorem length_xor (a b : Bytes) : (xor a b).length = min a.length b.length :=
  List.length_zipWith

theorem xor_xor {a b : Bytes} (h : a.length ≤ b.length) : xor (xor a b) b = a := by
  induction a generalizing b with
  | nil => rfl
  | cons x rest ih =>
    cases b with
    | nil => simp at h
    | cons y others =>
      have hrest := ih (b := others) (by simpa using h)
      simp only [xor, List.zipWith_cons_cons] at hrest ⊢
      rw [hrest, UInt8.xor_assoc, UInt8.xor_self, UInt8.xor_zero]

/-- Bytes combined with one byte twice are the first again. -/
theorem map_xor_twice (byte : UInt8) (bytes : Bytes) :
    (bytes.map (· ^^^ byte)).map (· ^^^ byte) = bytes := by
  have htwice : (· ^^^ byte) ∘ (· ^^^ byte) = id := by
    funext b
    simp only [Function.comp_apply, UInt8.xor_assoc, UInt8.xor_self, UInt8.xor_zero, id]
  rw [List.map_map, htwice, List.map_id]

end RecordPrivacy.Bytes
