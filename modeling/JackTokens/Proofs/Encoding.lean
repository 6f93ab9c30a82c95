import JackTokens.Proofs.Flow

namespace JackTokens

theorem toList_loop (bytes : ByteArray) (i : Nat) (read : List UInt8) :
    ByteArray.toList.loop bytes i read = read.reverse ++ bytes.data.toList.drop i := by
  fun_induction ByteArray.toList.loop bytes i read with
  | case1 i read inside ih =>
    have bound : i < bytes.data.toList.length := by simpa using inside
    have byte : bytes.get! i = bytes.data.toList[i] := by
      simpa [ByteArray.get!] using getElem!_pos bytes.data i inside
    rw [ih, List.drop_eq_getElem_cons bound, byte]
    simp
  | case2 i read outside =>
    have bound : bytes.data.toList.length ≤ i := by simpa using outside
    simp [List.drop_eq_nil_of_le bound]

theorem toUTF8_eq (text : String) : text.toUTF8 = (encode text.toList).toByteArray :=
  String.utf8Encode_toList.symm

theorem toList_toUTF8 (text : String) : text.toUTF8.toList = encode text.toList := by
  rw [toUTF8_eq, ByteArray.toList, toList_loop]
  simp

theorem encode_cons (c : Char) (cs : List Char) :
    encode (c :: cs) = String.utf8EncodeChar c ++ encode cs := rfl

theorem encode_append (cs ds : List Char) : encode (cs ++ ds) = encode cs ++ encode ds :=
  List.flatMap_append

theorem length_encode (text : String) : (encode text.toList).length = text.utf8ByteSize := by
  have size := congrArg ByteArray.size (toUTF8_eq text)
  rw [List.size_toByteArray] at size
  exact size.symm

/-- The number of bytes that follow in a character, by its first byte. -/
def TrailingCount (lead n : Nat) : Prop :=
  (n = 0 ∧ lead ≤ 0x7F) ∨ (n = 1 ∧ 0xC2 ≤ lead ∧ lead ≤ 0xDF) ∨
    (n = 2 ∧ 0xE0 ≤ lead ∧ lead ≤ 0xEF) ∨ (n = 3 ∧ 0xF0 ≤ lead ∧ lead ≤ 0xF4)

theorem exists_trailing? {lead : UInt8} {n : Nat} (h : TrailingCount lead.toNat n) :
    ∃ ranges, trailing? lead = some ranges ∧ ranges.length = n := by
  unfold TrailingCount at h
  unfold trailing?
  simp only [UInt8.le_iff_toNat_le, UInt8.lt_iff_toNat_lt, ← UInt8.toNat_inj, UInt8.reduceToNat]
  repeat' split
  all_goals first
    | exact ⟨_, rfl, by simp only [List.length_nil, List.length_cons]; omega⟩
    | omega

theorem exists_lead (c : Char) :
    ∃ lead rest, String.utf8EncodeChar c = lead :: rest ∧
      TrailingCount lead.toNat rest.length := by
  have valid : c.val.toNat ≤ 0x10FFFF := by
    have := c.valid
    simp only [UInt32.isValidChar, Nat.isValidChar] at this
    omega
  unfold String.utf8EncodeChar TrailingCount
  dsimp only
  repeat' split
  all_goals
    refine ⟨_, _, rfl, ?_⟩
    simp only [List.length_nil, List.length_cons, UInt8.toNat_ofNat', true_and]
    omega

namespace Flow

/-- A character is decoded from the bytes that encode it, whatever comes after. -/
theorem decode_char (c : Char) (s : Flow) :
    decode ((String.utf8EncodeChar c).map .ok ++ s) =
      (.ok (some (c, (String.utf8EncodeChar c).length)),
        (String.utf8EncodeChar c).map .ok ++ s) := by
  have decoded := ByteArray.utf8DecodeChar?_utf8EncodeChar_append (b := .empty) (c := c)
  obtain ⟨lead, rest, bytes, count⟩ := exists_lead c
  obtain ⟨ranges, ht, hr⟩ := exists_trailing? count
  have all : await ranges.length (rest.map .ok ++ s) = (.ok (some rest), rest.map .ok ++ s) := by
    rw [await_bytes s (Nat.le_of_eq hr), hr, List.take_length]
  have char : decodeSequence lead ranges rest = .ok c := by
    simp only [bytes, ByteArray.append_empty] at decoded
    simp only [decodeSequence, decoded]
  rw [bytes, List.map_cons, List.cons_append]
  simp only [decode, ht, all, char]
  rw [hr, List.length_cons]

theorem peek_encode (c : Char) (cs : List Char) :
    peek ((encode (c :: cs)).map .ok) = (.ok (some c), (encode (c :: cs)).map .ok) := by
  rw [encode_cons, List.map_append, peek, decode_char]

theorem next_char (c : Char) (s : Flow) :
    next ((String.utf8EncodeChar c).map .ok ++ s) = (.ok (some c), s) := by
  rw [next, decode_char]
  simp only [List.drop_append, List.length_map, List.drop_of_length_le, Nat.le_refl, Nat.sub_self,
    List.drop_zero, List.nil_append]

theorem next_encode (c : Char) (cs : List Char) :
    next ((encode (c :: cs)).map .ok) = (.ok (some c), (encode cs).map .ok) := by
  rw [encode_cons, List.map_append, next_char]

end Flow

end JackTokens
