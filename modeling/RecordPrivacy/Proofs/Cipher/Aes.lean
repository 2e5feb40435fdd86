import RecordPrivacy.Cipher.Aes
import RecordPrivacy.Proofs.Bytes

/-! Sizes in the block cipher.

The schedule of a key of whole words is made of words of four bytes, so that its round keys are whole
blocks (`length_of_mem_roundKeys`), and under round keys that are whole blocks a block becomes a
block (`length_encryptBlock`). -/
namespace RecordPrivacy.Aes

/-! ### Round keys -/

/-- The next word is the one that came a key's length before it, combined with a mix of the last. -/
theorem expandFrom_succ (keyWords count index : Nat) (constant : UInt8) {latest : List Bytes}
    (nonempty : latest ≠ []) (words : ∀ word ∈ latest, word.length = 4) :
    ∃ mixed constant', mixed.length = 4 ∧
      expandFrom keyWords (count + 1) index constant latest =
        expandFrom keyWords count (index + 1) constant'
          (Bytes.xor (latest.getD (keyWords - 1) []) mixed :: latest) := by
  obtain ⟨previous, rest, rfl⟩ := List.exists_cons_of_ne_nil nonempty
  have hprevious : previous.length = 4 := words previous List.mem_cons_self
  simp only [expandFrom, List.headD_cons]
  split
  · refine ⟨_, _, ?_, rfl⟩
    simp only [Bytes.length_xor, List.length_map, List.length_append, List.length_drop,
      List.length_take, hprevious, List.length_cons, List.length_nil]
    omega
  · refine ⟨_, _, ?_, rfl⟩
    split
    · rw [List.length_map, hprevious]
    · exact hprevious

/-- Words are only ever made of words that are there already. -/
theorem expandFrom_words {keyWords : Nat} (positive : 0 < keyWords) (count index : Nat)
    (constant : UInt8) (latest : List Bytes) (enough : keyWords ≤ latest.length)
    (words : ∀ word ∈ latest, word.length = 4) :
    (expandFrom keyWords count index constant latest).length = latest.length + count ∧
      ∀ word ∈ expandFrom keyWords count index constant latest, word.length = 4 := by
  induction count generalizing index constant latest with
  | zero => exact ⟨rfl, words⟩
  | succ count ih =>
    have hplace : keyWords - 1 < latest.length := by omega
    have hbase : (latest.getD (keyWords - 1) []).length = 4 := by
      rw [List.getD_eq_getElem?_getD, List.getElem?_eq_getElem hplace]
      exact words _ (List.getElem_mem hplace)
    obtain ⟨mixed, constant', hmixed, hnext⟩ := expandFrom_succ keyWords count index constant
      (List.ne_nil_of_length_pos (by omega)) words
    obtain ⟨hlength, hall⟩ := ih (index + 1) constant'
      (Bytes.xor (latest.getD (keyWords - 1) []) mixed :: latest)
      (by rw [List.length_cons]; omega) (List.forall_mem_cons.mpr
        ⟨by rw [Bytes.length_xor, hbase, hmixed, Nat.min_self], words⟩)
    rw [hnext]
    exact ⟨by rw [hlength, List.length_cons]; omega, hall⟩

theorem length_of_mem_roundKeys {key : Bytes} {keyWords : Nat} (positive : 0 < keyWords)
    (size : key.length = 4 * keyWords) : ∀ roundKey ∈ roundKeys key, roundKey.length = 16 := by
  have hkeyWords : key.length / 4 = keyWords := by omega
  obtain ⟨hcount, hwords⟩ := Bytes.chunks_whole (show 0 < 4 by decide) keyWords size
  obtain ⟨hlength, hall⟩ := expandFrom_words positive (4 * (keyWords + 7) - keyWords) keyWords 1
    (Bytes.chunks 4 key).reverse (Nat.le_of_eq (by rw [List.length_reverse, hcount]))
    fun word hword => hwords word (List.mem_reverse.mp hword)
  rw [List.length_reverse, hcount] at hlength
  rw [roundKeys, hkeyWords]
  refine (Bytes.chunks_whole (by decide) (keyWords + 7) ?_).2
  rw [List.length_flatten, List.map_reverse, List.sum_reverse]
  rw [List.map_congr_left (g := fun _ => 4) hall, List.map_const', hlength, List.sum_replicate_nat]
  omega

/-! ### Blocks -/

theorem length_shiftRows (block : Bytes) : (shiftRows block).length = 16 := by
  rw [shiftRows, List.length_map, List.length_range]

theorem length_mixColumn {column : Bytes} (h : column.length = 4) :
    (mixColumn column).length = 4 := by
  match column, h with
  | [a, b, c, d], _ => rfl

theorem length_mixColumns {block : Bytes} (h : block.length = 16) :
    (mixColumns block).length = 16 := by
  obtain ⟨hcount, hcolumns⟩ := Bytes.chunks_whole (show 0 < 4 by decide) 4 h
  rw [mixColumns, List.length_flatMap,
    List.map_congr_left (g := fun _ => 4) fun column hcolumn =>
      length_mixColumn (hcolumns column hcolumn),
    List.map_const', hcount, List.sum_replicate_nat]

theorem length_rounds (keys : List Bytes) (whole : ∀ key ∈ keys, key.length = 16) {block : Bytes}
    (h : block.length = 16) : (rounds block keys).length = 16 := by
  induction keys generalizing block with
  | nil => exact h
  | cons key rest ih =>
    have hkey := whole key List.mem_cons_self
    cases rest with
    | nil => rw [rounds, Bytes.length_xor, length_shiftRows, hkey, Nat.min_self]
    | cons next others =>
      refine ih (fun k hk => whole k (List.mem_cons_of_mem key hk)) ?_
      rw [Bytes.length_xor, length_mixColumns (length_shiftRows _), hkey, Nat.min_self]

theorem length_encryptBlock {keys : List Bytes} (whole : ∀ key ∈ keys, key.length = 16)
    {block : Bytes} (h : block.length = 16) : (encryptBlock keys block).length = 16 := by
  cases keys with
  | nil => exact h
  | cons first rest =>
    refine length_rounds rest (fun key hkey => whole key (List.mem_cons_of_mem first hkey)) ?_
    rw [Bytes.length_xor, h, whole first List.mem_cons_self, Nat.min_self]

end RecordPrivacy.Aes
