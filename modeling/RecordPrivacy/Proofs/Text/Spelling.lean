import RecordPrivacy.Proofs.Text.Base64

/-! The spelling of base64.

A text is in base64 if it is made of symbols, then as many pads as fill the last group of four, and if
the bits that the last symbol has beyond the last byte are zero (`Spelled`). These are the texts that
are written for some bytes or other (`exists_encode_iff`), and the only ones that can be read: a
character of another alphabet, a pad that something else follows, a wrong number of pads and bits that
no byte takes up are each refused, and there is no other way to misspell a text
(`decode_error_iff_misspelled`). -/
namespace RecordPrivacy.Base64

/-! ### Symbols and pads -/

def alphabet : List Char :=
  (List.range 64).map symbol

theorem mem_alphabet {c : Char} : c ∈ alphabet ↔ ∃ n < 64, symbol n = c := by
  simp [alphabet]

theorem symbol_ne_equals : ∀ n < 64, symbol n ≠ '=' := by decide

theorem symbol_injective {m n : Nat} (hm : m < 64) (hn : n < 64) (h : symbol m = symbol n) :
    m = n := by
  have hsextet := sextet?_symbol m hm
  rw [h, sextet?_symbol n hn] at hsextet
  exact (Option.some.inj hsextet).symm

theorem equals_not_mem {symbols : List Char} (h : symbols ⊆ alphabet) : '=' ∉ symbols := by
  intro hmem
  obtain ⟨n, hn, hsymbol⟩ := mem_alphabet.mp (h hmem)
  exact symbol_ne_equals n hn hsymbol

/-- The pads at the end of a text begin in one place. -/
theorem append_pads_inj {symbols symbols' : List Char} {pads pads' : Nat} (h : '=' ∉ symbols)
    (h' : '=' ∉ symbols')
    (heq : symbols ++ List.replicate pads '=' = symbols' ++ List.replicate pads' '=') :
    symbols = symbols' ∧ pads = pads' := by
  have hcut : ∀ {front : List Char} (n : Nat), '=' ∉ front →
      (front ++ List.replicate n '=').takeWhile (· ≠ '=') = front := by
    intro front n hfront
    rw [List.takeWhile_append_of_pos fun c hc => by
      simpa using fun he : c = '=' => hfront (he ▸ hc)]
    cases n <;> simp [List.replicate_succ]
  have hsymbols : symbols = symbols' := by rw [← hcut pads h, heq, hcut pads' h']
  have hlength := congrArg List.length heq
  simp only [hsymbols, List.length_append, List.length_replicate] at hlength
  exact ⟨hsymbols, by omega⟩

/-! ### Texts as they are written -/

/-- The text is made of the symbols of some numbers, and of pads. Each pad leaves two bits of the last
symbol unused. -/
structure Spelled (text : List Char) (sextets : List Nat) (pads : Nat) : Prop where
  text_eq : text = sextets.map symbol ++ List.replicate pads '='
  small : ∀ n ∈ sextets, n < 64
  few : pads ≤ 2
  whole : (sextets.length + pads) % 4 = 0
  unused : ∀ n ∈ sextets.getLast?, n % (1 <<< (2 * pads)) = 0

variable {text : List Char} {sextets : List Nat} {pads : Nat}

/-- How many pads there are depends on the number of symbols alone. -/
theorem Spelled.pads_eq (h : Spelled text sextets pads) :
    pads = (4 - sextets.length % 4) % 4 := by
  have hwhole := h.whole
  have hfew := h.few
  omega

theorem Spelled.cons_group {a b c d : Nat} (h : Spelled text sextets pads) (ha : a < 64)
    (hb : b < 64) (hc : c < 64) (hd : d < 64) :
    Spelled (symbol a :: symbol b :: symbol c :: symbol d :: text) (a :: b :: c :: d :: sextets)
      pads where
  text_eq := by rw [h.text_eq]; rfl
  small := by
    simp only [List.forall_mem_cons]
    exact ⟨ha, hb, hc, hd, h.small⟩
  few := h.few
  whole := by
    have hwhole := h.whole
    simp only [List.length_cons]
    omega
  unused := by
    cases sextets with
    | nil =>
      obtain rfl : pads = 0 := h.pads_eq
      exact fun n _ => Nat.mod_one n
    | cons e rest =>
      simp only [List.getLast?_cons_cons]
      exact h.unused

theorem Spelled.tail {a b c d : Nat} (h : Spelled text (a :: b :: c :: d :: sextets) pads) :
    Spelled (sextets.map symbol ++ List.replicate pads '=') sextets pads where
  text_eq := rfl
  small n hn := h.small n (by simp [hn])
  few := h.few
  whole := by
    have hwhole := h.whole
    simp only [List.length_cons] at hwhole
    omega
  unused n hn := by
    refine h.unused n ?_
    cases sextets with
    | nil => cases hn
    | cons e rest => simpa only [List.getLast?_cons_cons] using hn

theorem spelled_encodeSymbols (bytes : Bytes) :
    ∃ sextets pads, Spelled (encodeSymbols bytes) sextets pads := by
  induction bytes using encodeSymbols.induct with
  | case1 => exact ⟨[], 0, rfl, by simp, by decide, rfl, by simp⟩
  | case2 a =>
    have ha := a.toNat_lt
    refine ⟨[a.toNat * 16 / 64, a.toNat * 16 % 64], 2, rfl, ?_, Nat.le_refl 2, by simp, ?_⟩
    · intro n hn
      simp only [List.mem_cons, List.not_mem_nil, or_false] at hn
      omega
    · intro n hn
      simp only [List.getLast?_cons_cons, List.getLast?_singleton, Option.mem_some_iff] at hn
      show n % 16 = 0
      omega
  | case3 a b =>
    have ha := a.toNat_lt
    have hb := b.toNat_lt
    refine ⟨[(a.toNat * 1024 + b.toNat * 4) / 4096, (a.toNat * 1024 + b.toNat * 4) / 64 % 64,
      (a.toNat * 1024 + b.toNat * 4) % 64], 1, rfl, ?_, by decide, by simp, ?_⟩
    · intro n hn
      simp only [List.mem_cons, List.not_mem_nil, or_false] at hn
      omega
    · intro n hn
      simp only [List.getLast?_cons_cons, List.getLast?_singleton, Option.mem_some_iff] at hn
      show n % 4 = 0
      omega
  | case4 a b c rest ih =>
    have ha := a.toNat_lt
    have hb := b.toNat_lt
    have hc := c.toNat_lt
    obtain ⟨sextets, pads, h⟩ := ih
    exact ⟨_, pads, h.cons_group (by omega) (Nat.mod_lt _ (by decide)) (Nat.mod_lt _ (by decide))
      (Nat.mod_lt _ (by decide))⟩

/-- Four symbols are three bytes; what is left at the end are two symbols or three. -/
theorem Spelled.exists_bytes : ∀ {sextets : List Nat} {text : List Char} {pads : Nat},
    Spelled text sextets pads → ∃ bytes, encodeSymbols bytes = text
  | [], text, pads, h => by
    obtain rfl : pads = 0 := h.pads_eq
    exact ⟨[], h.text_eq.symm⟩
  | [a], text, pads, h => by
    obtain rfl : pads = 3 := h.pads_eq
    exact absurd h.few (by decide)
  | [a, b], text, pads, h => by
    obtain rfl : pads = 2 := h.pads_eq
    exact ⟨_, (encodeSymbols_one (h.small a (by simp)) (h.small b (by simp))
      (h.unused b rfl)).trans h.text_eq.symm⟩
  | [a, b, c], text, pads, h => by
    obtain rfl : pads = 1 := h.pads_eq
    exact ⟨_, (encodeSymbols_two (h.small a (by simp)) (h.small b (by simp)) (h.small c (by simp))
      (h.unused c rfl)).trans h.text_eq.symm⟩
  | a :: b :: c :: d :: sextets, text, pads, h => by
    obtain ⟨bytes, hbytes⟩ := h.tail.exists_bytes
    refine ⟨_, (encodeSymbols_three (h.small a (by simp)) (h.small b (by simp))
      (h.small c (by simp)) (h.small d (by simp)) bytes).trans ?_⟩
    rw [hbytes, h.text_eq]
    rfl

theorem exists_encode_iff {text : String} :
    (∃ bytes, encode bytes = text) ↔ ∃ sextets pads, Spelled text.toList sextets pads := by
  constructor
  · rintro ⟨bytes, rfl⟩
    rw [encode, String.toList_ofList]
    exact spelled_encodeSymbols bytes
  · rintro ⟨sextets, pads, h⟩
    obtain ⟨bytes, hbytes⟩ := h.exists_bytes
    exact ⟨bytes, by rw [encode, hbytes, String.ofList_toList]⟩

/-! ### Texts as they are not -/

/-- A way to misspell a text: a character that is neither symbol nor pad, such as a blank; a pad that
something else follows; too few pads or too many; bits in the last symbol that no byte takes up. -/
inductive Misspelled (text : List Char) : Prop
  | foreign {c : Char} (mem : c ∈ text) (other : c ∉ alphabet) (no_pad : c ≠ '=')
  | misplaced {front rest : List Char} {c : Char} (text_eq : text = front ++ '=' :: rest)
      (mem : c ∈ rest) (no_pad : c ≠ '=')
  | padding (symbols : List Char) (pads : Nat)
      (text_eq : text = symbols ++ List.replicate pads '=') (symbols_ok : symbols ⊆ alphabet)
      (wrong : 2 < pads ∨ (symbols.length + pads) % 4 ≠ 0)
  | unused (symbols : List Char) (n pads : Nat)
      (text_eq : text = symbols ++ symbol n :: List.replicate pads '=')
      (symbols_ok : symbols ⊆ alphabet) (small : n < 64) (left : n % (1 <<< (2 * pads)) ≠ 0)

theorem Spelled.subset_alphabet (h : Spelled text sextets pads) :
    sextets.map symbol ⊆ alphabet := by
  intro c hc
  obtain ⟨n, hn, rfl⟩ := List.mem_map.mp hc
  exact mem_alphabet.mpr ⟨n, h.small n hn, rfl⟩

theorem Spelled.not_misspelled (h : Spelled text sextets pads) : ¬ Misspelled text := by
  have hequals := equals_not_mem h.subset_alphabet
  intro hwrong
  cases hwrong with
  | foreign mem other no_pad =>
    rw [h.text_eq] at mem
    obtain hmem | hmem := List.mem_append.mp mem
    · exact other (h.subset_alphabet hmem)
    · exact no_pad (List.eq_of_mem_replicate hmem)
  | misplaced text_eq mem no_pad =>
    -- Wherever the pad stands, it is one of the last, and so is all that follows it.
    refine no_pad (List.eq_of_mem_replicate (n := pads) ?_)
    rw [h.text_eq] at text_eq
    obtain ⟨others, -, hpads⟩ | ⟨others, hsymbols, hrest⟩ := List.append_eq_append_iff.mp text_eq
    · rw [hpads]
      simp [mem]
    · cases others with
      | nil =>
        rw [List.nil_append] at hrest
        rw [← hrest]
        exact List.mem_cons_of_mem _ mem
      | cons first others =>
        cases hrest
        exact absurd (by rw [hsymbols]; simp) hequals
  | padding _ _ text_eq symbols_ok wrong =>
    rw [h.text_eq] at text_eq
    obtain ⟨rfl, rfl⟩ := append_pads_inj hequals (equals_not_mem symbols_ok) text_eq
    have hwhole := h.whole
    have hfew := h.few
    rw [List.length_map] at wrong
    omega
  | unused symbols n pads' text_eq symbols_ok small left =>
    have hall : symbols ++ [symbol n] ⊆ alphabet :=
      List.append_subset.mpr ⟨symbols_ok,
        List.cons_subset.mpr ⟨mem_alphabet.mpr ⟨n, small, rfl⟩, List.nil_subset _⟩⟩
    rw [h.text_eq, ← List.singleton_append, ← List.append_assoc] at text_eq
    obtain ⟨hsymbols, rfl⟩ := append_pads_inj hequals (equals_not_mem hall) text_eq
    have hlast := congrArg List.getLast? hsymbols
    rw [List.getLast?_map, List.getLast?_concat] at hlast
    obtain ⟨m, hm, hsymbol⟩ := Option.map_eq_some_iff.mp hlast
    obtain rfl := symbol_injective (h.small m (List.mem_of_getLast? hm)) small hsymbol
    exact left (h.unused m hm)

theorem exists_sextets {symbols : List Char} (h : symbols ⊆ alphabet) :
    ∃ sextets : List Nat, symbols = sextets.map symbol ∧ ∀ n ∈ sextets, n < 64 := by
  induction symbols with
  | nil => exact ⟨[], rfl, by simp⟩
  | cons c rest ih =>
    obtain ⟨n, hn, rfl⟩ := mem_alphabet.mp (h List.mem_cons_self)
    obtain ⟨sextets, rfl, hsmall⟩ := ih fun d hd => h (List.mem_cons_of_mem _ hd)
    exact ⟨n :: sextets, rfl, List.forall_mem_cons.mpr ⟨hn, hsmall⟩⟩

/-- Symbols and pads are a spelling unless the pads are wrong or bits are left over. -/
theorem spelled_or_misspelled_of_append {symbols : List Char} (h : symbols ⊆ alphabet)
    (pads : Nat) : (∃ sextets, Spelled (symbols ++ List.replicate pads '=') sextets pads) ∨
      Misspelled (symbols ++ List.replicate pads '=') := by
  obtain ⟨sextets, rfl, hsmall⟩ := exists_sextets h
  by_cases hpads : pads ≤ 2 ∧ (sextets.length + pads) % 4 = 0
  · by_cases hunused : ∀ n ∈ sextets.getLast?, n % (1 <<< (2 * pads)) = 0
    · exact .inl ⟨sextets, rfl, hsmall, hpads.1, hpads.2, hunused⟩
    · right
      cases hlast : sextets.getLast? with
      | none => exact absurd (by simp [hlast]) hunused
      | some n =>
        obtain ⟨front, rfl⟩ := List.getLast?_eq_some_iff.mp hlast
        refine .unused (front.map symbol) n pads (by simp) ?_
          (hsmall n (by simp)) fun hzero => hunused fun m hm => ?_
        · rw [List.map_append] at h
          exact (List.append_subset.mp h).1
        · rw [hlast, Option.mem_some_iff] at hm
          rw [← hm, hzero]
  · refine .inr (.padding _ pads rfl h ?_)
    rw [List.length_map]
    omega

theorem spelled_or_misspelled (text : List Char) :
    (∃ sextets pads, Spelled text sextets pads) ∨ Misspelled text := by
  by_cases hforeign : ∃ c ∈ text, c ∉ alphabet ∧ c ≠ '='
  · obtain ⟨c, hc, hother, hpad⟩ := hforeign
    exact .inr (.foreign hc hother hpad)
  have htext := List.takeWhile_append_dropWhile (p := (· ≠ '=')) (l := text)
  have hsymbols : text.takeWhile (· ≠ '=') ⊆ alphabet := by
    intro c hc
    have hpad : c ≠ '=' := by simpa using List.all_eq_true.mp List.all_takeWhile c hc
    exact Decidable.byContradiction fun hother =>
      hforeign ⟨c, (List.takeWhile_sublist _).subset hc, hother, hpad⟩
  have hfirst := List.head?_dropWhile_not (· ≠ '=') text
  generalize text.takeWhile (· ≠ '=') = symbols at htext hsymbols
  generalize text.dropWhile (· ≠ '=') = ending at htext hfirst
  rw [← htext]
  by_cases hpads : ∀ c ∈ ending, c = '='
  · rw [List.eq_replicate_of_mem hpads]
    exact (spelled_or_misspelled_of_append hsymbols ending.length).imp_left
      fun ⟨sextets, h⟩ => ⟨sextets, ending.length, h⟩
  · -- The first pad is followed by something else.
    right
    cases ending with
    | nil => exact absurd (by simp) hpads
    | cons first rest =>
      obtain rfl : first = '=' := by simpa using hfirst
      obtain ⟨c, hc, hother⟩ : ∃ c ∈ rest, c ≠ '=' := by simpa using hpads
      exact .misplaced rfl hc hother

/-- **What cannot be read is misspelled, and what is misspelled cannot be read.** -/
theorem decode_error_iff_misspelled {text : String} :
    (∃ fault, decode text = .error fault) ↔ Misspelled text.toList := by
  have hspelled : (∃ bytes, encode bytes = text) ↔ ¬ Misspelled text.toList := by
    rw [exists_encode_iff]
    refine ⟨fun ⟨sextets, pads, h⟩ => h.not_misspelled, fun h => ?_⟩
    exact (spelled_or_misspelled text.toList).resolve_right h
  rw [decode_error_iff, ← not_exists, hspelled, Classical.not_not]

end RecordPrivacy.Base64
