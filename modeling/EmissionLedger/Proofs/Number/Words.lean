import EmissionLedger.Number.Operand
import EmissionLedger.Proofs.Layout.Bytes
import EmissionLedger.Proofs.Number.Exactness
import Mathlib.Algebra.Group.Int.Defs

/-!
The words and the bytes of a number. Both are the digits of the raw value, in base `2 ^ 64` and in base
256, so either gives the number back, and any four words or 32 bytes are those of a number. A word holds
eight bytes, so the bytes of the words, one word after the other, are the bytes of the number.

Main statements: `words_eq_shifted` and `ofWords_eq_or` for the words as parts of the binary digits;
`words_bytes_agree`.
-/

namespace EmissionLedger

/-! ### Bytes in parts -/

theorem littleEndian_add (width more n : ℕ) : littleEndian (width + more) n =
    littleEndian width n ++ littleEndian more (n / 256 ^ width) := by
  induction width generalizing n with
  | zero =>
      rw [Nat.zero_add, Nat.pow_zero, Nat.div_one]
      rfl
  | succ width ih =>
      have hdiv : n / 256 / 256 ^ width = n / 256 ^ (width + 1) := by
        rw [Nat.div_div_eq_div_mul, Nat.pow_succ']
      rw [Nat.add_right_comm, littleEndian, littleEndian, ih, hdiv, List.cons_append]

/-- Only the low bytes count. -/
theorem littleEndian_mod (width n : ℕ) : littleEndian width (n % 256 ^ width) = littleEndian width n := by
  induction width generalizing n with
  | zero => rfl
  | succ width ih =>
      rw [littleEndian, littleEndian, Nat.pow_succ', Nat.mod_mul_right_mod, Nat.mod_mul_right_div_self, ih]

namespace Number

/-! ### Words -/

/-- The low `count` words of a natural number, least significant first. -/
def lowWords : ℕ → ℕ → List ℕ
  | 0, _ => []
  | count + 1, n => n % wordBase :: lowWords count (n / wordBase)

theorem words_eq (a : Number) : a.words = lowWords 4 a.raw := by
  simp only [words, lowWords, Nat.pow_eq, Nat.div_div_eq_div_mul, Nat.pow_succ, Nat.pow_zero, Nat.one_mul]

theorem lt_of_mem_lowWords {count n w : ℕ} (h : w ∈ lowWords count n) : w < wordBase := by
  induction count generalizing n with
  | zero => cases h
  | succ count ih =>
      rw [lowWords, List.mem_cons] at h
      rcases h with rfl | h
      · exact Nat.mod_lt n (by decide)
      · exact ih h

theorem ofWords_lt {ws : List ℕ} (h : ∀ w ∈ ws, w < wordBase) : ofWords ws < wordBase ^ ws.length := by
  induction ws with
  | nil => decide
  | cons w rest ih =>
      obtain ⟨hw, hrest⟩ := List.forall_mem_cons.mp h
      rw [ofWords, List.length_cons, Nat.pow_succ']
      calc w + wordBase * ofWords rest < wordBase + wordBase * ofWords rest := Nat.add_lt_add_right hw _
        _ = wordBase * (ofWords rest + 1) := by rw [Nat.mul_succ, Nat.add_comm]
        _ ≤ wordBase * wordBase ^ rest.length := Nat.mul_le_mul_left _ (ih hrest)

/-- A value that fits in as many words is put together from them. -/
theorem ofWords_lowWords {count n : ℕ} (h : n < wordBase ^ count) : ofWords (lowWords count n) = n := by
  induction count generalizing n with
  | zero => exact (Nat.lt_one_iff.mp h).symm
  | succ count ih =>
      rw [Nat.pow_succ'] at h
      rw [lowWords, ofWords, ih (Nat.div_lt_of_lt_mul h), Nat.mod_add_div]

/-- Words are those of the value that they make up. -/
theorem lowWords_ofWords {ws : List ℕ} (h : ∀ w ∈ ws, w < wordBase) :
    lowWords ws.length (ofWords ws) = ws := by
  induction ws with
  | nil => rfl
  | cons w rest ih =>
      obtain ⟨hw, hrest⟩ := List.forall_mem_cons.mp h
      rw [ofWords, List.length_cons, lowWords, Nat.add_mul_mod_self_left, Nat.mod_eq_of_lt hw,
        Nat.add_mul_div_left _ _ (by decide), Nat.div_eq_of_lt hw, Nat.zero_add, ih hrest]

/-- The bytes of the words are the bytes of the value. -/
theorem flatMap_lowWords (count n : ℕ) :
    (lowWords count n).flatMap (littleEndian 8) = littleEndian (8 * count) n := by
  have hbase : wordBase = 256 ^ 8 := by decide
  induction count generalizing n with
  | zero => rfl
  | succ count ih =>
      rw [lowWords, List.flatMap_cons, ih, Nat.mul_succ, Nat.add_comm, littleEndian_add, hbase,
        littleEndian_mod]

/-! ### Words as binary digits -/

theorem wordBase_pow (k : ℕ) : wordBase ^ k = 2 ^ (64 * k) :=
  (Nat.pow_mul 2 64 k).symm

/-- The words of a number are what shifting it and masking it with 64 ones leaves. -/
theorem words_eq_shifted (a : Number) :
    a.words = (List.range 4).map fun i => (a.raw >>> (64 * i)) &&& (2 ^ 64 - 1) := by
  simp only [Nat.shiftRight_eq_div_pow, Nat.and_two_pow_sub_one_eq_mod, ← wordBase_pow]
  show a.words = [a.raw / wordBase ^ 0 % wordBase, a.raw / wordBase ^ 1 % wordBase,
    a.raw / wordBase ^ 2 % wordBase, a.raw / wordBase ^ 3 % wordBase]
  rw [Nat.pow_zero, Nat.div_one, Nat.pow_one]
  rfl

/-- Words from the place `k` on are joined to the `k` words that are there. -/
theorem foldl_or_zipIdx {ws : List ℕ} (h : ∀ w ∈ ws, w < wordBase) {k raw : ℕ}
    (hraw : raw < wordBase ^ k) :
    (ws.zipIdx k).foldl (fun raw place => raw ||| place.1 <<< (64 * place.2)) raw =
      raw + wordBase ^ k * ofWords ws := by
  induction ws generalizing k raw with
  | nil => rfl
  | cons w rest ih =>
      obtain ⟨hw, hrest⟩ := List.forall_mem_cons.mp h
      have hjoined : raw ||| w <<< (64 * k) = raw + wordBase ^ k * w := by
        rw [Nat.or_comm, ← Nat.shiftLeft_add_eq_or_of_lt (wordBase_pow k ▸ hraw), Nat.shiftLeft_eq,
          ← wordBase_pow, Nat.add_comm, Nat.mul_comm]
      have hlt : raw + wordBase ^ k * w < wordBase ^ (k + 1) := by
        calc raw + wordBase ^ k * w < wordBase ^ k + wordBase ^ k * w := Nat.add_lt_add_right hraw _
          _ = wordBase ^ k * (w + 1) := by rw [Nat.mul_succ, Nat.add_comm]
          _ ≤ wordBase ^ k * wordBase := Nat.mul_le_mul_left _ hw
          _ = wordBase ^ (k + 1) := (Nat.pow_succ ..).symm
      rw [List.zipIdx_cons, List.foldl_cons, hjoined, ih hrest hlt, ofWords, Nat.pow_succ, Nat.mul_add,
        Nat.mul_assoc, Nat.add_assoc]

/-- Words are put together by shifting each to its place and joining the bits. -/
theorem ofWords_eq_or {ws : List ℕ} (h : ∀ w ∈ ws, w < wordBase) :
    ofWords ws = ws.zipIdx.foldl (fun raw place => raw ||| place.1 <<< (64 * place.2)) 0 := by
  rw [foldl_or_zipIdx h (k := 0) Nat.one_pos, Nat.zero_add, Nat.pow_zero, Nat.one_mul]

/-! ### Numbers -/

theorem raw_lt (a : Number) : a.raw < wordBase ^ 4 :=
  Nat.lt_of_le_of_lt a.raw_le (by decide)

theorem le_maxRaw {n : ℕ} (h : n < 2 ^ 256) : n ≤ maxRaw :=
  Nat.le_sub_one_of_lt h

/-- Four words are those of a number exactly if they make up its raw value. -/
theorem words_eq_iff {a : Number} {ws : List ℕ} (hfour : ws.length = 4) (h : ∀ w ∈ ws, w < wordBase) :
    a.words = ws ↔ a.raw = ofWords ws := by
  constructor
  · rintro rfl
    rw [words_eq, ofWords_lowWords a.raw_lt]
  · intro hraw
    rw [words_eq, hraw, ← hfour, lowWords_ofWords h]

theorem wordsOfJson_ints {ws : List ℕ} (h : ∀ w ∈ ws, w < wordBase) (i : ℕ) :
    wordsOfJson i (ws.map fun w : ℕ => Json.int w) = .ok ws := by
  induction ws generalizing i with
  | nil => rfl
  | cons w rest ih =>
      obtain ⟨hw, hrest⟩ := List.forall_mem_cons.mp h
      rw [List.map_cons, wordsOfJson, if_neg (by omega), ih hrest]
      rfl

/-- What four words are read as. -/
theorem ofWordsJson_eq_ok {a : Number} {ws : List ℕ} (hfour : ws.length = 4)
    (h : ∀ w ∈ ws, w < wordBase) :
    ofWordsJson (ws.map fun w : ℕ => Json.int w) = .ok a ↔ a.words = ws := by
  rw [words_eq_iff hfour h, ← ofRaw_eq_ok, ofWordsJson, List.length_map, if_pos hfour, wordsOfJson_ints h]
  rfl

/-- A number is read back from its words. -/
theorem ofWordsJson_words (a : Number) : ofWordsJson (a.words.map fun w : ℕ => Json.int w) = .ok a :=
  (ofWordsJson_eq_ok rfl fun _ hw => lt_of_mem_lowWords (a.words_eq ▸ hw)).mpr rfl

/-- Any four words are those of a number. -/
theorem ofWordsJson_answered {ws : List ℤ} (hfour : ws.length = 4)
    (h : ∀ w ∈ ws, 0 ≤ w ∧ w ≤ 2 ^ 64 - 1) :
    ∃ a, ofWordsJson (ws.map Json.int) = .ok a ∧ a.words.map (fun w : ℕ => (w : ℤ)) = ws := by
  obtain ⟨ws, rfl⟩ : ∃ naturals : List ℕ, naturals.map (fun w : ℕ => (w : ℤ)) = ws := by
    refine ⟨ws.map Int.toNat, ?_⟩
    calc (ws.map Int.toNat).map (fun w : ℕ => (w : ℤ)) = ws.map fun w => (w.toNat : ℤ) := List.map_map
      _ = ws.map id := List.map_congr_left fun w hw => Int.toNat_of_nonneg (h w hw).1
      _ = ws := List.map_id ws
  have hsmall : ∀ w ∈ ws, w < wordBase := by
    intro w hw
    have hbase : wordBase = 2 ^ 64 := rfl
    have hle := (h w (List.mem_map_of_mem hw)).2
    omega
  rw [List.length_map] at hfour
  have hlt := ofWords_lt hsmall
  rw [hfour] at hlt
  let a : Number := ⟨ofWords ws, le_maxRaw hlt⟩
  have hwords : a.words = ws := (words_eq_iff hfour hsmall).mpr rfl
  refine ⟨a, ?_, congrArg _ hwords⟩
  rw [List.map_map]
  exact (ofWordsJson_eq_ok hfour hsmall).mpr hwords

theorem ofBytes_eq_ok {a : Number} {data : List UInt8} (hlength : data.length = byteCount) :
    ofBytes data = .ok a ↔ a.bytes = data := by
  have hfits : a.raw < Nat.pow 256 byteCount := a.raw_lt
  rw [ofBytes, if_pos hlength, ofRaw_eq_ok]
  constructor
  · intro hraw
    rw [bytes, hraw, ← hlength, littleEndian_ofLittleEndian]
  · rintro rfl
    rw [bytes, ofLittleEndian_littleEndian hfits]

/-- A number is read back from its bytes. -/
theorem ofBytes_bytes (a : Number) : ofBytes a.bytes = .ok a :=
  (ofBytes_eq_ok (length_littleEndian ..)).mpr rfl

/-- Any 32 bytes are those of a number. -/
theorem ofBytes_answered {data : List UInt8} (hlength : data.length = byteCount) :
    ∃ a, ofBytes data = .ok a ∧ a.bytes = data := by
  have hlt := ofLittleEndian_lt data
  rw [hlength] at hlt
  let a : Number := ⟨ofLittleEndian data, le_maxRaw hlt⟩
  have hread : ofBytes data = .ok a := by
    rw [ofBytes, if_pos hlength]
    exact ofRaw_eq_ok.mpr rfl
  exact ⟨a, hread, (ofBytes_eq_ok hlength).mp hread⟩

/-- The bytes of a number are those of its words, one after the other. -/
theorem bytes_eq_words (a : Number) : a.bytes = a.words.flatMap (littleEndian 8) := by
  rw [words_eq, flatMap_lowWords]
  rfl

/-- **Words and bytes.** A number is read back from its words and from its bytes, which are the bytes of
its words; and any four words and any 32 bytes are read as the number that they are the words or the
bytes of. -/
theorem words_bytes_agree :
    (∀ a : Number, ofWordsJson (a.words.map fun w : ℕ => Json.int w) = .ok a ∧ ofBytes a.bytes = .ok a ∧
      a.bytes = a.words.flatMap (littleEndian 8)) ∧
    (∀ ws : List ℤ, ws.length = 4 → (∀ w ∈ ws, 0 ≤ w ∧ w ≤ 2 ^ 64 - 1) →
      ∃ a, ofWordsJson (ws.map Json.int) = .ok a ∧ a.words.map (fun w : ℕ => (w : ℤ)) = ws) ∧
    (∀ data : List UInt8, data.length = 32 → ∃ a, ofBytes data = .ok a ∧ a.bytes = data) :=
  ⟨fun a => ⟨a.ofWordsJson_words, a.ofBytes_bytes, a.bytes_eq_words⟩,
    fun _ hfour h => ofWordsJson_answered hfour h, fun _ hlength => ofBytes_answered hlength⟩

/-- The words 1, 0, 0 and the largest make up a number, and so do 32 bytes of 255. -/
theorem words_bytes_agree_largest :
    (∃ a, ofWordsJson ([1, 0, 0, 2 ^ 64 - 1].map Json.int) = .ok a ∧
      a.words.map (fun w : ℕ => (w : ℤ)) = [1, 0, 0, 2 ^ 64 - 1]) ∧
    ∃ a, ofBytes (List.replicate 32 255) = .ok a ∧ a.bytes = List.replicate 32 255 :=
  ⟨words_bytes_agree.2.1 _ rfl (by decide), words_bytes_agree.2.2 _ List.length_replicate⟩

end Number

end EmissionLedger
