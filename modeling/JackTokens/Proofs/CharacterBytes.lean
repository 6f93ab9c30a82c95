import JackTokens.Proofs.Encoding

namespace JackTokens

/-- What the second byte of a character may be: less than any tail after E0 and F0, where a shorter
form exists, after ED, where surrogates would be, and after F4, where the code points end. -/
def Second (lead byte : Nat) : Prop :=
  (0x80 ≤ byte ∧ byte ≤ 0xBF) ∧ (lead = 0xE0 → 0xA0 ≤ byte) ∧ (lead = 0xED → byte ≤ 0x9F) ∧
    (lead = 0xF0 → 0x90 ≤ byte) ∧ (lead = 0xF4 → byte ≤ 0x8F)

/-- Some character is encoded by these bytes and perhaps more behind them. -/
def Viable (bytes : List UInt8) : Prop :=
  ∃ c, bytes <+: String.utf8EncodeChar c

/-- The longest part at the front of `bytes` that could still begin a character. -/
structure LongestStart (bytes start : List UInt8) : Prop where
  begins : start <+: bytes
  viable : Viable start
  longest : ∀ other, other <+: bytes → Viable other → other.length ≤ start.length

theorem ByteRange.contains_iff {range : ByteRange} {byte : UInt8} :
    range.contains byte = true ↔
      range.low.toNat ≤ byte.toNat ∧ byte.toNat ≤ range.high.toNat := by
  simp only [contains, Bool.and_eq_true, decide_eq_true_eq, UInt8.le_iff_toNat_le]

theorem tail_iff {byte : UInt8} :
    ByteRange.tail.contains byte = true ↔ 0x80 ≤ byte.toNat ∧ byte.toNat ≤ 0xBF :=
  ByteRange.contains_iff

theorem second_iff {lead low high : UInt8}
    (h : ∀ n, low.toNat ≤ n ∧ n ≤ high.toNat ↔ Second lead.toNat n) (byte : UInt8) :
    (ByteRange.mk low high).contains byte = true ↔ Second lead.toNat byte.toNat :=
  ByteRange.contains_iff.trans (h byte.toNat)

theorem trailing?_cases {lead : UInt8} {ranges : List ByteRange}
    (h : trailing? lead = some ranges) :
    TrailingCount lead.toNat ranges.length ∧ (ranges = [] ∨ ∃ second n,
      ranges = second :: List.replicate n .tail ∧
        ∀ byte, second.contains byte = true ↔ Second lead.toNat byte.toNat) := by
  unfold trailing? at h
  simp only [UInt8.le_iff_toNat_le, UInt8.lt_iff_toNat_lt, ← UInt8.toNat_inj,
    UInt8.reduceToNat] at h
  split at h
  next low =>
    cases h
    exact ⟨.inl ⟨rfl, low⟩, .inl rfl⟩
  split at h
  next => cases h
  split at h
  next =>
    cases h
    refine ⟨.inr (.inl ⟨rfl, by omega⟩), .inr ⟨_, 0, rfl, second_iff fun n => ?_⟩⟩
    simp only [Second, UInt8.reduceToNat]
    omega
  split at h
  next =>
    cases h
    refine ⟨.inr (.inr (.inl ⟨rfl, by omega⟩)), .inr ⟨_, 1, rfl, second_iff fun n => ?_⟩⟩
    simp only [Second, UInt8.reduceToNat]
    omega
  split at h
  next =>
    cases h
    refine ⟨.inr (.inr (.inl ⟨rfl, by omega⟩)), .inr ⟨_, 1, rfl, second_iff fun n => ?_⟩⟩
    simp only [Second, UInt8.reduceToNat]
    omega
  split at h
  next =>
    cases h
    refine ⟨.inr (.inr (.inl ⟨rfl, by omega⟩)), .inr ⟨_, 1, rfl, second_iff fun n => ?_⟩⟩
    simp only [Second, UInt8.reduceToNat]
    omega
  split at h
  next =>
    cases h
    refine ⟨.inr (.inr (.inr ⟨rfl, by omega⟩)), .inr ⟨_, 2, rfl, second_iff fun n => ?_⟩⟩
    simp only [Second, UInt8.reduceToNat]
    omega
  split at h
  next =>
    cases h
    refine ⟨.inr (.inr (.inr ⟨rfl, by omega⟩)), .inr ⟨_, 2, rfl, second_iff fun n => ?_⟩⟩
    simp only [Second, UInt8.reduceToNat]
    omega
  split at h
  next =>
    cases h
    refine ⟨.inr (.inr (.inr ⟨rfl, by omega⟩)), .inr ⟨_, 2, rfl, second_iff fun n => ?_⟩⟩
    simp only [Second, UInt8.reduceToNat]
    omega
  next => cases h

theorem exists_char_of_val {v : Nat} (h : v < 0xD800 ∨ 0xDFFF < v ∧ v < 0x110000) :
    ∃ c : Char, c.val.toNat = v :=
  ⟨Char.ofNatAux v h, rfl⟩

theorem encode_one {a : UInt8} (ha : a.toNat ≤ 0x7F) :
    ∃ c, String.utf8EncodeChar c = [a] := by
  obtain ⟨c, hc⟩ := @exists_char_of_val a.toNat (by omega)
  refine ⟨c, ?_⟩
  unfold String.utf8EncodeChar
  simp only [hc, if_pos ha, UInt8.ofNat_toNat]

theorem encode_two {a b : UInt8} (ha : 0xC2 ≤ a.toNat ∧ a.toNat ≤ 0xDF)
    (hb : Second a.toNat b.toNat) : ∃ c, String.utf8EncodeChar c = [a, b] := by
  unfold Second at hb
  obtain ⟨c, hc⟩ := @exists_char_of_val ((a.toNat - 0xC0) * 64 + (b.toNat - 0x80)) (by omega)
  refine ⟨c, ?_⟩
  unfold String.utf8EncodeChar
  dsimp only
  rw [hc, if_neg (by omega), if_pos (by omega)]
  simp only [List.cons.injEq, ← UInt8.toNat_inj, UInt8.toNat_ofNat', and_true]
  omega

theorem encode_three {a b c : UInt8} (ha : 0xE0 ≤ a.toNat ∧ a.toNat ≤ 0xEF)
    (hb : Second a.toNat b.toNat) (hc : 0x80 ≤ c.toNat ∧ c.toNat ≤ 0xBF) :
    ∃ d, String.utf8EncodeChar d = [a, b, c] := by
  unfold Second at hb
  obtain ⟨d, hd⟩ := @exists_char_of_val
    ((a.toNat - 0xE0) * 4096 + (b.toNat - 0x80) * 64 + (c.toNat - 0x80)) (by omega)
  refine ⟨d, ?_⟩
  unfold String.utf8EncodeChar
  dsimp only
  rw [hd, if_neg (by omega), if_neg (by omega), if_pos (by omega)]
  simp only [List.cons.injEq, ← UInt8.toNat_inj, UInt8.toNat_ofNat', and_true]
  omega

theorem encode_four {a b c d : UInt8} (ha : 0xF0 ≤ a.toNat ∧ a.toNat ≤ 0xF4)
    (hb : Second a.toNat b.toNat) (hc : 0x80 ≤ c.toNat ∧ c.toNat ≤ 0xBF)
    (hd : 0x80 ≤ d.toNat ∧ d.toNat ≤ 0xBF) : ∃ e, String.utf8EncodeChar e = [a, b, c, d] := by
  unfold Second at hb
  obtain ⟨e, he⟩ := @exists_char_of_val ((a.toNat - 0xF0) * 262144 + (b.toNat - 0x80) * 4096 +
    (c.toNat - 0x80) * 64 + (d.toNat - 0x80)) (by omega)
  refine ⟨e, ?_⟩
  unfold String.utf8EncodeChar
  dsimp only
  rw [he, if_neg (by omega), if_neg (by omega), if_neg (by omega)]
  simp only [List.cons.injEq, ← UInt8.toNat_inj, UInt8.toNat_ofNat', and_true]
  omega

/-- The bytes of a character: the second one depends on the lead byte, all others are tails. -/
theorem tails_of_encode {c : Char} {lead second : UInt8} {tails : List UInt8}
    (h : String.utf8EncodeChar c = lead :: second :: tails) :
    Second lead.toNat second.toNat ∧ ∀ byte ∈ tails, ByteRange.tail.contains byte = true := by
  have valid : c.val.toNat < 0xD800 ∨ 0xDFFF < c.val.toNat ∧ c.val.toNat < 0x110000 := c.valid
  unfold String.utf8EncodeChar at h
  dsimp only at h
  split at h
  next => cases h
  split at h
  next =>
    cases h
    refine ⟨?_, by simp⟩
    simp only [Second, UInt8.toNat_ofNat']
    omega
  split at h
  next =>
    cases h
    constructor
    · simp only [Second, UInt8.toNat_ofNat']
      omega
    · intro byte hb
      obtain rfl := List.mem_singleton.mp hb
      simp only [tail_iff, UInt8.toNat_ofNat']
      omega
  next =>
    cases h
    constructor
    · simp only [Second, UInt8.toNat_ofNat']
      omega
    · intro byte hb
      simp only [List.mem_cons, List.not_mem_nil, or_false] at hb
      rcases hb with rfl | rfl
      · simp only [tail_iff, UInt8.toNat_ofNat']
        omega
      · simp only [tail_iff, UInt8.toNat_ofNat']
        omega

theorem matching_cons {range : ByteRange} {byte : UInt8} (ranges : List ByteRange)
    (bytes : List UInt8) (n : Nat) :
    matching (range :: ranges) (byte :: bytes) = n + 1 ↔
      range.contains byte = true ∧ matching ranges bytes = n := by
  rw [matching]
  split
  next inside => simp [inside]
  next outside => simp [outside]

theorem matching_none (ranges : List ByteRange) : matching ranges [] = 0 := by
  cases ranges with
  | nil => rfl
  | cons => rfl

theorem matching_le (ranges : List ByteRange) (bytes : List UInt8) :
    matching ranges bytes ≤ ranges.length ∧ matching ranges bytes ≤ bytes.length := by
  fun_induction matching ranges bytes with
  | case1 range ranges byte bytes inside ih =>
    simp only [List.length_cons]
    omega
  | case2 => omega
  | case3 => omega

theorem matching_take (ranges : List ByteRange) (bytes : List UInt8) (n : Nat) :
    matching ranges (bytes.take n) = min n (matching ranges bytes) := by
  induction n generalizing ranges bytes with
  | zero => simp [matching_none]
  | succ n ih =>
    cases ranges with
    | nil => simp [matching]
    | cons range ranges =>
      cases bytes with
      | nil => simp [matching_none]
      | cons byte bytes =>
        rw [List.take_succ_cons, matching, matching, ih]
        split
        · omega
        · omega

theorem matching_tails {bytes : List UInt8}
    (h : ∀ byte ∈ bytes, ByteRange.tail.contains byte = true) :
    matching (List.replicate bytes.length .tail) bytes = bytes.length := by
  induction bytes with
  | nil => rfl
  | cons byte bytes ih =>
    obtain ⟨first, rest⟩ := List.forall_mem_cons.mp h
    exact (matching_cons _ _ _).mpr ⟨first, ih rest⟩

variable {lead : UInt8} {ranges : List ByteRange} {bytes : List UInt8}

theorem exists_char_of_matching (h : trailing? lead = some ranges)
    (hl : bytes.length = ranges.length) (hm : matching ranges bytes = ranges.length) :
    ∃ c, String.utf8EncodeChar c = lead :: bytes := by
  obtain ⟨count, rfl | ⟨second, n, rfl, spec⟩⟩ := trailing?_cases h
  · obtain rfl := List.length_eq_zero_iff.mp hl
    have low : lead.toNat ≤ 0x7F := by
      simp only [TrailingCount, List.length_nil] at count
      omega
    exact encode_one low
  · cases bytes with
    | nil => cases hl
    | cons a bytes =>
      obtain ⟨first, rest⟩ := (matching_cons _ _ _).mp hm
      have inside := (spec a).mp first
      simp only [TrailingCount, List.length_cons, List.length_replicate] at count hl
      rcases count with ⟨no, _⟩ | ⟨one, bounds⟩ | ⟨two, bounds⟩ | ⟨three, bounds⟩
      · omega
      · obtain rfl := List.length_eq_zero_iff.mp (show bytes.length = 0 by omega)
        exact encode_two bounds inside
      · obtain rfl : n = 1 := by omega
        obtain ⟨b, rfl⟩ := List.length_eq_one_iff.mp (show bytes.length = 1 by omega)
        obtain ⟨hb, _⟩ := (matching_cons _ _ _).mp rest
        exact encode_three bounds inside (tail_iff.mp hb)
      · obtain rfl : n = 2 := by omega
        obtain ⟨b, bytes, rfl⟩ := List.exists_cons_of_length_pos (show 0 < bytes.length by omega)
        obtain ⟨c, rfl⟩ := List.length_eq_one_iff.mp (show bytes.length = 1 by simpa using hl)
        obtain ⟨hb, rest⟩ := (matching_cons _ _ _).mp rest
        obtain ⟨hc, _⟩ := (matching_cons _ _ _).mp rest
        exact encode_four bounds inside (tail_iff.mp hb) (tail_iff.mp hc)

theorem matching_of_encode {c : Char} (h : trailing? lead = some ranges)
    (same : String.utf8EncodeChar c = lead :: bytes) :
    bytes.length = ranges.length ∧ matching ranges bytes = ranges.length := by
  obtain ⟨first, others, bytes_eq, count⟩ := exists_lead c
  rw [same] at bytes_eq
  obtain ⟨rfl, rfl⟩ := List.cons.inj bytes_eq
  obtain ⟨found, hf, width⟩ := exists_trailing? count
  obtain rfl := Option.some.inj (hf.symm.trans h)
  refine ⟨width.symm, ?_⟩
  obtain ⟨_, rfl | ⟨second, n, rfl, spec⟩⟩ := trailing?_cases h
  · rfl
  · cases bytes with
    | nil => cases width
    | cons a tails =>
      obtain ⟨inside, rest⟩ := tails_of_encode same
      obtain rfl : n = tails.length := by simpa using width
      rw [List.length_cons, List.length_replicate]
      exact (matching_cons _ _ _).mpr ⟨(spec a).mpr inside, matching_tails rest⟩

theorem exists_inside (h : trailing? lead = some ranges) :
    ∀ range ∈ ranges, ∃ byte, range.contains byte = true := by
  obtain ⟨_, rfl | ⟨second, n, rfl, spec⟩⟩ := trailing?_cases h
  · simp
  · intro range hr
    rcases List.mem_cons.mp hr with rfl | hr
    · have low : Second lead.toNat 0xA0 ∨ Second lead.toNat 0x90 ∨ Second lead.toNat 0x80 := by
        unfold Second
        omega
      rcases low with low | low | low
      · exact ⟨0xA0, (spec _).mpr low⟩
      · exact ⟨0x90, (spec _).mpr low⟩
      · exact ⟨0x80, (spec _).mpr low⟩
    · rw [List.eq_of_mem_replicate hr]
      exact ⟨0x80, rfl⟩

/-- Bytes in their ranges can be completed to as many as there are ranges. -/
theorem exists_completion (open_ : ∀ range ∈ ranges, ∃ byte, range.contains byte = true)
    (h : matching ranges bytes = bytes.length) :
    ∃ more, (bytes ++ more).length = ranges.length ∧
      matching ranges (bytes ++ more) = ranges.length := by
  induction ranges generalizing bytes with
  | nil =>
    have none : bytes.length = 0 := h.symm
    refine ⟨[], ?_, rfl⟩
    rw [List.append_nil, none, List.length_nil]
  | cons range ranges ih =>
    obtain ⟨⟨byte, inside⟩, open_⟩ := List.forall_mem_cons.mp open_
    cases bytes with
    | nil =>
      obtain ⟨more, length, all⟩ := @ih [] open_ (matching_none ranges)
      exact ⟨byte :: more, congrArg (· + 1) length, (matching_cons _ _ _).mpr ⟨inside, all⟩⟩
    | cons a bytes =>
      obtain ⟨first, rest⟩ := (matching_cons _ _ _).mp h
      obtain ⟨more, length, all⟩ := ih open_ rest
      exact ⟨more, congrArg (· + 1) length, (matching_cons _ _ _).mpr ⟨first, all⟩⟩

theorem viable_iff (h : trailing? lead = some ranges) :
    Viable (lead :: bytes) ↔ matching ranges bytes = bytes.length := by
  constructor
  · intro viable
    obtain ⟨c, more, whole⟩ := viable
    rw [List.cons_append] at whole
    obtain ⟨length, all⟩ := matching_of_encode h whole.symm
    have part := matching_take ranges (bytes ++ more) bytes.length
    rw [List.take_left] at part
    rw [List.length_append] at length
    omega
  · intro all
    obtain ⟨more, length, full⟩ := exists_completion (exists_inside h) all
    obtain ⟨c, hc⟩ := exists_char_of_matching h length full
    refine ⟨c, more, ?_⟩
    rw [hc, List.cons_append]

theorem longestStart_matching (h : trailing? lead = some ranges) (bytes : List UInt8) :
    LongestStart (lead :: bytes) (lead :: bytes.take (matching ranges bytes)) := by
  have bound := (matching_le ranges bytes).2
  have length : (bytes.take (matching ranges bytes)).length = matching ranges bytes := by
    rw [List.length_take]
    omega
  refine ⟨?_, ?_, ?_⟩
  · exact List.cons_prefix_cons.mpr ⟨rfl, List.take_prefix _ _⟩
  · rw [viable_iff h, matching_take, length]
    omega
  · intro other begins viable
    cases other with
    | nil => exact Nat.zero_le _
    | cons first other =>
      obtain ⟨rfl, front⟩ := List.cons_prefix_cons.mp begins
      have all := (viable_iff h).mp viable
      have part := matching_take ranges bytes other.length
      rw [← List.prefix_iff_eq_take.mp front] at part
      rw [List.length_cons, List.length_cons, length]
      omega

end JackTokens
