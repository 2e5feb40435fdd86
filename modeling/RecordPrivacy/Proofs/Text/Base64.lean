import RecordPrivacy.Text.Base64

/-! Base64 read back.

The text of some bytes is made of symbols and pads, which are a byte each. Read in groups of four,
it gives the bytes again (`decode_encode`), and no other text does so (`encode_of_decode`). -/
namespace RecordPrivacy.Base64

/-! ### Symbols as bytes -/

/-- The byte of a character of one byte. -/
def byte (c : Char) : UInt8 :=
  UInt8.ofNat c.toNat

theorem encode_ofList (chars : List Char) (ascii : ∀ c ∈ chars, c.toNat < 128) :
    Utf8.encode (String.ofList chars) = chars.map byte := by
  have hchar : ∀ c : Char, c.toNat < 128 → String.utf8EncodeChar c = [byte c] := by
    intro c hc
    have hle : c.val.toNat ≤ 0x7f := by
      show c.toNat ≤ 0x7f
      omega
    simp only [String.utf8EncodeChar, hle, if_true]
    rfl
  have hflat : chars.flatMap String.utf8EncodeChar = chars.map byte := by
    induction chars with
    | nil => rfl
    | cons c rest ih =>
      rw [List.flatMap_cons, hchar c (ascii c List.mem_cons_self),
        ih fun d hd => ascii d (List.mem_cons_of_mem _ hd)]
      rfl
  simp [Utf8.encode, List.utf8Encode, hflat]

theorem symbol_lt : ∀ n < 64, (symbol n).toNat < 128 := by decide

theorem sextet?_symbol : ∀ n < 64, sextet? (byte (symbol n)) = some n := by decide

theorem symbol_ne_pad : ∀ n < 64, byte (symbol n) ≠ pad := by decide

theorem sextet_symbol (n offset : Nat) (h : n < 64) : sextet (byte (symbol n)) offset = .ok n := by
  simp only [sextet, sextet?_symbol n h]

theorem encodeSymbols_lt (bytes : Bytes) : ∀ c ∈ encodeSymbols bytes, c.toNat < 128 := by
  induction bytes using encodeSymbols.induct with
  | case1 => simp [encodeSymbols]
  | case2 a =>
    have ha := a.toNat_lt
    simp [encodeSymbols, symbol_lt, show a.toNat * 16 / 64 < 64 by omega, Nat.mod_lt]
  | case3 a b =>
    have ha := a.toNat_lt
    have hb := b.toNat_lt
    simp [encodeSymbols, symbol_lt, Nat.mod_lt,
      show (a.toNat * 1024 + b.toNat * 4) / 4096 < 64 by omega]
  | case4 a b c rest ih =>
    have ha := a.toNat_lt
    have hb := b.toNat_lt
    have hc := c.toNat_lt
    simp only [encodeSymbols, List.mem_cons]
    intro d h
    obtain rfl | rfl | rfl | rfl | hd := h
    · exact symbol_lt _ (by omega)
    · exact symbol_lt _ (Nat.mod_lt _ (by decide))
    · exact symbol_lt _ (Nat.mod_lt _ (by decide))
    · exact symbol_lt _ (Nat.mod_lt _ (by decide))
    · exact ih d hd

/-! ### Groups of four -/

theorem ofNat_eq {n : Nat} {b : UInt8} (h : n % 256 = b.toNat) : UInt8.ofNat n = b := by
  apply UInt8.toNat_inj.mp
  rw [UInt8.toNat_ofNat']
  exact h

/-- The bytes that are read out of the number that three bytes make up. -/
theorem ofNat_three (a b c : UInt8) (n : Nat)
    (h : n = a.toNat * 65536 + b.toNat * 256 + c.toNat) :
    [UInt8.ofNat (n / 65536), UInt8.ofNat (n / 256), UInt8.ofNat n] = [a, b, c] := by
  have ha := a.toNat_lt
  have hb := b.toNat_lt
  have hc := c.toNat_lt
  rw [ofNat_eq (b := a) (by omega), ofNat_eq (b := b) (by omega), ofNat_eq (b := c) (by omega)]

theorem decodeQuad_symbols (a b c : UInt8) (offset : Nat) :
    let n := a.toNat * 65536 + b.toNat * 256 + c.toNat
    decodeQuad offset (byte (symbol (n / 262144))) (byte (symbol (n / 4096 % 64)))
      (byte (symbol (n / 64 % 64))) (byte (symbol (n % 64))) = .ok [a, b, c] := by
  have ha := a.toNat_lt
  have hb := b.toNat_lt
  have hc := c.toNat_lt
  intro n
  simp only [decodeQuad, sextet_symbol _ _ (show n / 262144 < 64 by omega),
    sextet_symbol _ _ (show n / 4096 % 64 < 64 by omega),
    sextet_symbol _ _ (show n / 64 % 64 < 64 by omega),
    sextet_symbol _ _ (show n % 64 < 64 by omega)]
  exact congrArg Except.ok (ofNat_three a b c _ (by omega))

theorem lastGroup_symbol (offset place n : Nat) (rest : Bytes) (h : n < 64) :
    lastGroup offset place 0 (byte (symbol n) :: rest) =
      (lastGroup offset (place + 1) 0 rest).map fun (symbols, pads) =>
        ((byte (symbol n), n) :: symbols, pads) := by
  rw [lastGroup, if_neg (symbol_ne_pad n h), if_neg (by simp), sextet_symbol n _ h]
  cases lastGroup offset (place + 1) 0 rest <;> rfl

theorem decodeLast_one (a : UInt8) (offset : Nat) :
    decodeLast offset ((encodeSymbols [a]).map byte) = .ok [a] := by
  have ha := a.toNat_lt
  have hpads : lastGroup offset 2 0 [pad, pad] = .ok ([], 2) := by simp [lastGroup]
  simp only [encodeSymbols, List.map_cons, List.map_nil, show byte '=' = pad by decide]
  rw [decodeLast, lastGroup_symbol _ _ _ _ (by omega), lastGroup_symbol _ _ _ _ (by omega), hpads]
  simp only [Except.map, bind, Except.bind]
  rw [if_neg (by decide), if_neg (by omega)]
  exact congrArg Except.ok (by rw [ofNat_eq (b := a) (by omega)])

theorem decodeLast_two (a b : UInt8) (offset : Nat) :
    decodeLast offset ((encodeSymbols [a, b]).map byte) = .ok [a, b] := by
  have ha := a.toNat_lt
  have hb := b.toNat_lt
  have hpads : lastGroup offset 3 0 [pad] = .ok ([], 1) := by simp [lastGroup]
  simp only [encodeSymbols, List.map_cons, List.map_nil, show byte '=' = pad by decide]
  rw [decodeLast, lastGroup_symbol _ _ _ _ (by omega), lastGroup_symbol _ _ _ _ (by omega),
    lastGroup_symbol _ _ _ _ (by omega), hpads]
  simp only [Except.map, bind, Except.bind]
  rw [if_neg (by decide), if_neg (by omega)]
  exact congrArg Except.ok (by rw [ofNat_eq (b := a) (by omega), ofNat_eq (b := b) (by omega)])

theorem decodeLast_three (a b c : UInt8) (offset : Nat) :
    decodeLast offset ((encodeSymbols [a, b, c]).map byte) = .ok [a, b, c] := by
  have ha := a.toNat_lt
  have hb := b.toNat_lt
  have hc := c.toNat_lt
  simp only [encodeSymbols, List.map_cons, List.map_nil]
  rw [decodeLast, lastGroup_symbol _ _ _ _ (by omega), lastGroup_symbol _ _ _ _ (by omega),
    lastGroup_symbol _ _ _ _ (by omega), lastGroup_symbol _ _ _ _ (by omega)]
  simp only [lastGroup, Except.map, bind, Except.bind]
  exact congrArg Except.ok (ofNat_three a b c _ (by omega))

/-! ### The whole text -/

/-- Three bytes are four symbols; a shorter group is padded. -/
theorem length_encodeSymbols (bytes : Bytes) : (encodeSymbols bytes).length % 4 = 0 := by
  induction bytes using encodeSymbols.induct with
  | case1 => rfl
  | case2 a => simp [encodeSymbols]
  | case3 a b => simp [encodeSymbols]
  | case4 a b c rest ih =>
    simp only [encodeSymbols, List.length_cons]
    omega

theorem encodeSymbols_eq_nil {bytes : Bytes} (h : encodeSymbols bytes = []) : bytes = [] := by
  induction bytes using encodeSymbols.induct with
  | case1 => rfl
  | case2 a => simp [encodeSymbols] at h
  | case3 a b => simp [encodeSymbols] at h
  | case4 a b c rest _ => simp [encodeSymbols] at h

theorem decodeGroups_symbols (bytes : Bytes) (offset : Nat) :
    decodeGroups offset ((encodeSymbols bytes).map byte) = .ok bytes := by
  induction bytes using encodeSymbols.induct generalizing offset with
  | case1 => rfl
  | case2 a => exact decodeLast_one a offset
  | case3 a b => exact decodeLast_two a b offset
  | case4 a b c rest ih =>
    cases rest with
    | nil => exact decodeLast_three a b c offset
    | cons d rest =>
      -- A group is the last one only if nothing follows it.
      obtain ⟨e, others, he⟩ : ∃ e others, (encodeSymbols (d :: rest)).map byte = e :: others := by
        refine List.exists_cons_of_ne_nil fun h => ?_
        cases encodeSymbols_eq_nil (List.map_eq_nil_iff.mp h)
      have hrest := ih (offset + 4)
      rw [he] at hrest
      rw [encodeSymbols]
      simp only [List.map_cons, he, decodeGroups, decodeQuad_symbols, hrest]
      rfl

/-- **What was written is read back.** -/
theorem decode_encode (bytes : Bytes) : decode (encode bytes) = .ok bytes := by
  rw [decode, encode, encode_ofList _ (encodeSymbols_lt bytes), decodeBytes]
  have hlength := length_encodeSymbols bytes
  split
  · rw [if_neg fun h => by simp only [List.length_map] at h; omega]
    exact decodeGroups_symbols bytes 0
  · rename_i hnone
    rw [encodeSymbols_eq_nil (List.map_eq_nil_iff.mp (List.getLast?_eq_none_iff.mp hnone))]

theorem encode_injective {bytes bytes' : Bytes} (h : encode bytes = encode bytes') :
    bytes = bytes' := by
  have hdecoded := decode_encode bytes
  rw [h, decode_encode] at hdecoded
  exact (Except.ok.inj hdecoded).symm

/-! ### One text for some bytes -/

/-- Steps that get through did so one after the other. -/
theorem bind_ok {α β : Type} {x : Except Fault α} {f : α → Except Fault β} {b : β}
    (h : (x >>= f) = .ok b) : ∃ a, x = .ok a ∧ f a = .ok b := by
  cases x with
  | error e => cases h
  | ok a => exact ⟨a, rfl, h⟩

/-- A byte that stands for a number is the symbol of that number. -/
theorem byte_symbol {b : UInt8} {n : Nat} (h : sextet? b = some n) :
    n < 64 ∧ byte (symbol n) = b := by
  have hall : ∀ m < 256, (sextet? (UInt8.ofNat m)).all
      (fun n => n < 64 ∧ byte (symbol n) = UInt8.ofNat m) = true := by decide +kernel
  have hb := hall b.toNat b.toNat_lt
  rw [UInt8.ofNat_toNat, h] at hb
  simpa using hb

theorem sextet_ok_iff {b : UInt8} {offset n : Nat} :
    sextet b offset = .ok n ↔ sextet? b = some n := by
  unfold sextet
  cases sextet? b <;> simp

theorem encodeSymbols_three {a b c d : Nat} (ha : a < 64) (hb : b < 64) (hc : c < 64) (hd : d < 64)
    (rest : Bytes) :
    let n := a * 262144 + b * 4096 + c * 64 + d
    encodeSymbols (UInt8.ofNat (n / 65536) :: UInt8.ofNat (n / 256) :: UInt8.ofNat n :: rest) =
      symbol a :: symbol b :: symbol c :: symbol d :: encodeSymbols rest := by
  intro n
  have hn : n / 65536 % 256 * 65536 + n / 256 % 256 * 256 + n % 256 = n := by omega
  simp only [encodeSymbols, UInt8.toNat_ofNat', Nat.reducePow, hn]
  rw [show n / 262144 = a by omega, show n / 4096 % 64 = b by omega,
    show n / 64 % 64 = c by omega, show n % 64 = d by omega]

theorem encodeSymbols_two {a b c : Nat} (ha : a < 64) (hb : b < 64) (hc : c < 64)
    (unused : c % 4 = 0) :
    let n := a * 1024 + b * 16 + c / 4
    encodeSymbols [UInt8.ofNat (n / 256), UInt8.ofNat n] =
      [symbol a, symbol b, symbol c, '='] := by
  intro n
  have hn : n / 256 % 256 * 1024 + n % 256 * 4 = a * 4096 + b * 64 + c := by omega
  simp only [encodeSymbols, UInt8.toNat_ofNat', Nat.reducePow, hn]
  rw [show (a * 4096 + b * 64 + c) / 4096 = a by omega,
    show (a * 4096 + b * 64 + c) / 64 % 64 = b by omega,
    show (a * 4096 + b * 64 + c) % 64 = c by omega]

theorem encodeSymbols_one {a b : Nat} (ha : a < 64) (hb : b < 64) (unused : b % 16 = 0) :
    encodeSymbols [UInt8.ofNat (a * 4 + b / 16)] = [symbol a, symbol b, '=', '='] := by
  have hn : (a * 4 + b / 16) % 256 * 16 = a * 64 + b := by omega
  simp only [encodeSymbols, UInt8.toNat_ofNat', Nat.reducePow, hn]
  rw [show (a * 64 + b) / 64 = a by omega, show (a * 64 + b) % 64 = b by omega]

theorem decodeQuad_ok {a b c d : UInt8} {offset : Nat} {data : Bytes}
    (h : decodeQuad offset a b c d = .ok data) (rest : Bytes) :
    (encodeSymbols (data ++ rest)).map byte =
      a :: b :: c :: d :: (encodeSymbols rest).map byte := by
  unfold decodeQuad at h
  obtain ⟨A, hA, h⟩ := bind_ok h
  obtain ⟨B, hB, h⟩ := bind_ok h
  obtain ⟨C, hC, h⟩ := bind_ok h
  obtain ⟨D, hD, h⟩ := bind_ok h
  cases h
  obtain ⟨ha, hA⟩ := byte_symbol (sextet_ok_iff.mp hA)
  obtain ⟨hb, hB⟩ := byte_symbol (sextet_ok_iff.mp hB)
  obtain ⟨hc, hC⟩ := byte_symbol (sextet_ok_iff.mp hC)
  obtain ⟨hd, hD⟩ := byte_symbol (sextet_ok_iff.mp hD)
  have hthree := encodeSymbols_three ha hb hc hd rest
  simp only [List.cons_append, List.nil_append, hthree, List.map_cons, hA, hB, hC, hD]

/-- The last group is made of symbols and, after them, pads. -/
theorem lastGroup_ok {offset place pads total : Nat} {group : Bytes} {symbols : List (UInt8 × Nat)}
    (h : lastGroup offset place pads group = .ok (symbols, total)) :
    (∀ s ∈ symbols, sextet? s.1 = some s.2) ∧ pads ≤ total ∧ (0 < pads → symbols = []) ∧
      group = symbols.map Prod.fst ++ List.replicate (total - pads) pad := by
  induction group generalizing place pads symbols with
  | nil =>
    cases h
    simp
  | cons b rest ih =>
    rw [lastGroup] at h
    by_cases hpad : b = pad
    · subst hpad
      rw [if_pos rfl] at h
      by_cases hplace : place < 2
      · rw [if_pos hplace] at h
        cases h
      · rw [if_neg hplace] at h
        obtain ⟨-, hle, hnone, hrest⟩ := ih h
        obtain rfl := hnone (Nat.succ_pos _)
        refine ⟨by simp, by omega, fun _ => rfl, ?_⟩
        rw [show total - pads = total - (pads + 1) + 1 by omega, List.replicate_succ, hrest]
        rfl
    · rw [if_neg hpad] at h
      by_cases hpads : pads ≠ 0
      · rw [if_pos hpads] at h
        cases h
      · obtain rfl : pads = 0 := by omega
        rw [if_neg hpads] at h
        obtain ⟨n, hn, h⟩ := bind_ok h
        obtain ⟨⟨others, count⟩, hlast, h⟩ := bind_ok h
        cases h
        obtain ⟨hall, -, -, hrest⟩ := ih hlast
        refine ⟨?_, Nat.zero_le _, fun hlt => absurd hlt (Nat.lt_irrefl 0), ?_⟩
        · intro s hs
          rcases List.mem_cons.mp hs with rfl | hs
          · exact sextet_ok_iff.mp hn
          · exact hall s hs
        · rw [hrest]
          rfl

theorem decodeLast_ok {offset : Nat} {group data : Bytes} (short : group.length ≤ 4)
    (h : decodeLast offset group = .ok data) : group = (encodeSymbols data).map byte := by
  unfold decodeLast at h
  obtain ⟨⟨symbols, pads⟩, hlast, hread⟩ := bind_ok h
  obtain ⟨hall, -, -, rfl⟩ := lastGroup_ok hlast
  rcases symbols with _ | ⟨⟨x, a⟩, _ | ⟨⟨y, b⟩, _ | ⟨⟨z, c⟩, _ | ⟨⟨u, d⟩, more⟩⟩⟩⟩
  · cases hread
  · cases hread
  · obtain ⟨ha, hx⟩ : a < 64 ∧ byte (symbol a) = x := byte_symbol (hall (x, a) (by simp))
    obtain ⟨hb, hy⟩ : b < 64 ∧ byte (symbol b) = y := byte_symbol (hall (y, b) (by simp))
    dsimp only at hread
    by_cases hpads : pads = 2
    · subst hpads
      by_cases hunused : b % 16 = 0
      · rw [if_neg (by decide), if_neg (not_not_intro hunused)] at hread
        cases hread
        rw [encodeSymbols_one ha hb hunused]
        simp only [List.map_cons, List.map_nil, hx, hy]
        rfl
      · rw [if_neg (by decide), if_pos hunused] at hread
        cases hread
    · rw [if_pos hpads] at hread
      cases hread
  · obtain ⟨ha, hx⟩ : a < 64 ∧ byte (symbol a) = x := byte_symbol (hall (x, a) (by simp))
    obtain ⟨hb, hy⟩ : b < 64 ∧ byte (symbol b) = y := byte_symbol (hall (y, b) (by simp))
    obtain ⟨hc, hz⟩ : c < 64 ∧ byte (symbol c) = z := byte_symbol (hall (z, c) (by simp))
    dsimp only at hread
    by_cases hpads : pads = 1
    · subst hpads
      by_cases hunused : c % 4 = 0
      · rw [if_neg (by decide), if_neg (not_not_intro hunused)] at hread
        cases hread
        rw [encodeSymbols_two ha hb hc hunused]
        simp only [List.map_cons, List.map_nil, hx, hy, hz]
        rfl
      · rw [if_neg (by decide), if_pos hunused] at hread
        cases hread
    · rw [if_pos hpads] at hread
      cases hread
  · -- Four symbols fill the group.
    obtain ⟨ha, hx⟩ : a < 64 ∧ byte (symbol a) = x := byte_symbol (hall (x, a) (by simp))
    obtain ⟨hb, hy⟩ : b < 64 ∧ byte (symbol b) = y := byte_symbol (hall (y, b) (by simp))
    obtain ⟨hc, hz⟩ : c < 64 ∧ byte (symbol c) = z := byte_symbol (hall (z, c) (by simp))
    obtain ⟨hd, hu⟩ : d < 64 ∧ byte (symbol d) = u := byte_symbol (hall (u, d) (by simp))
    have hfull : more.length + pads = 0 := by
      simp only [List.map_cons, List.length_append, List.length_cons, List.length_map,
        List.length_replicate] at short
      omega
    obtain rfl : more = [] := List.eq_nil_of_length_eq_zero (by omega)
    obtain rfl : pads = 0 := by omega
    cases hread
    rw [encodeSymbols_three ha hb hc hd []]
    simp only [List.map_cons, List.map_nil, hx, hy, hz, hu]
    rfl

theorem decodeGroups_ok {offset : Nat} {bytes data : Bytes}
    (h : decodeGroups offset bytes = .ok data) : bytes = (encodeSymbols data).map byte := by
  induction offset, bytes using decodeGroups.induct generalizing data with
  | case1 =>
    cases h
    rfl
  | case2 offset a b c d e rest ih =>
    rw [decodeGroups] at h
    obtain ⟨first, hfirst, h⟩ := bind_ok h
    obtain ⟨others, hothers, h⟩ := bind_ok h
    cases h
    rw [decodeQuad_ok hfirst others, ← ih hothers]
  | case3 offset group hsome hshort =>
    have hlast : decodeGroups offset group = decodeLast offset group := by
      unfold decodeGroups
      split
      · exact absurd rfl hsome
      · exact absurd rfl (hshort _ _ _ _ _ _)
      · rfl
    rw [hlast] at h
    refine decodeLast_ok ?_ h
    match group, hshort with
    | [], _ | [_], _ | [_, _], _ | [_, _, _], _ | [_, _, _, _], _ => simp
    | a :: b :: c :: d :: e :: rest, hshort => exact absurd rfl (hshort a b c d e rest)

/-- **A text stands for some bytes only if it is the one that is written for them.** -/
theorem encode_of_decode {text : String} {bytes : Bytes} (h : decode text = .ok bytes) :
    encode bytes = text := by
  have hbytes : Utf8.encode text = (encodeSymbols bytes).map byte := by
    unfold decode decodeBytes at h
    split at h
    · split at h
      · cases h
      · exact decodeGroups_ok h
    · next hnone =>
      cases h
      exact List.getLast?_eq_none_iff.mp hnone
  have hencoded : Utf8.encode (encode bytes) = Utf8.encode text := by
    rw [hbytes, encode, encode_ofList _ (encodeSymbols_lt bytes)]
  have hdecoded := Utf8.decode_encode (encode bytes)
  rw [hencoded, Utf8.decode_encode] at hdecoded
  exact (Except.ok.inj hdecoded).symm

/-- What cannot be read was not written. -/
theorem decode_error_iff {text : String} :
    (∃ fault, decode text = .error fault) ↔ ∀ bytes, encode bytes ≠ text := by
  cases h : decode text with
  | error fault =>
    refine ⟨fun _ bytes he => ?_, fun _ => ⟨fault, rfl⟩⟩
    rw [← he, decode_encode] at h
    cases h
  | ok bytes =>
    refine ⟨fun hex => ?_, fun hall => absurd (encode_of_decode h) (hall bytes)⟩
    obtain ⟨_, hfault⟩ := hex
    cases hfault

end RecordPrivacy.Base64
