/-! Text as a list of characters, and its UTF-8 bytes. -/

namespace VerticalAI.Foundation.Utf8

/-- The UTF-8 bytes of a text. -/
def encode (text : List Char) : List UInt8 := text.flatMap String.utf8EncodeChar

/-- Read bytes as text; `none` when they are not UTF-8. -/
def decode (bytes : List UInt8) : Option (List Char) :=
  (ByteArray.utf8Decode? bytes.toByteArray).map Array.toList

@[simp] theorem encode_nil : encode [] = [] := rfl

@[simp] theorem encode_append (first second : List Char)
    : encode (first ++ second) = encode first ++ encode second := by
  simp only [encode, List.flatMap_append]

theorem encode_cons (char : Char) (text : List Char)
    : encode (char :: text) = String.utf8EncodeChar char ++ encode text := by
  simp only [encode, List.flatMap_cons]

theorem toByteArray_encode (text : List Char)
    : (encode text).toByteArray = text.utf8Encode := rfl

/-- Decoding what was encoded gives the text again. -/
@[simp] theorem decode_encode (text : List Char) : decode (encode text) = some text := by
  simp only [decode, toByteArray_encode, List.utf8Decode?_utf8Encode, Option.map_some]

/-- Whatever reads as a text is that text's bytes. -/
theorem encode_of_decode {bytes : List UInt8} {text : List Char}
    (read : decode bytes = some text)
    : encode text = bytes := by
  obtain ⟨chars, decoded, rfl⟩ := Option.map_eq_some_iff.mp read
  have valid : bytes.toByteArray.utf8Decode?.isSome := by simp only [decoded, Option.isSome_some]
  have back : (bytes.toByteArray.utf8Decode?.get valid).toList.utf8Encode
      = bytes.toByteArray :=
    ByteArray.utf8Encode_get_utf8Decode?
  simp only [decoded, Option.get_some, ← toByteArray_encode] at back
  simpa only [List.toByteArray_inj] using back

/-- A text is determined by its bytes. -/
theorem encode_injective {first second : List Char} (same : encode first = encode second)
    : first = second := by
  have decoded := congrArg decode same
  simpa only [decode_encode, Option.some.injEq] using decoded

/-- Well-formed text in front decides nothing about the bytes after it, by induction on the
text.
-/
theorem decode_encode_append (text : List Char) (bytes : List UInt8)
    : decode (encode text ++ bytes) = (decode bytes).map (text ++ ·) := by
  induction text with
  | nil => simp only [encode_nil, List.nil_append, Option.map_id']
  | cons char text ih =>
      have split : (encode (char :: text) ++ bytes).toByteArray
          = [char].utf8Encode ++ (encode text ++ bytes).toByteArray := by
        rw [encode_cons, List.append_assoc, List.toByteArray_append,
          List.utf8Encode_singleton]
      have unfolded : decode (encode (char :: text) ++ bytes)
          = (decode (encode text ++ bytes)).map (char :: ·) := by
        simp only [decode, split, ByteArray.utf8Decode?_utf8Encode_singleton_append,
          Option.map_map]
        congr 1
        funext chars
        simp only [Function.comp_apply, Array.toList_append, List.cons_append,
          List.nil_append]
      rw [unfolded, ih, Option.map_map]
      rfl

/-- What reads as text inside a longer text is a prefix of that text. -/
theorem prefix_of_decode {bytes rest : List UInt8} {text whole : List Char}
    (read : decode bytes = some text) (joined : bytes ++ rest = encode whole)
    : text <+: whole := by
  have front := encode_of_decode read
  have split : decode (encode text ++ rest) = some whole := by
    rw [front, joined, decode_encode]
  rw [decode_encode_append] at split
  obtain ⟨tail, -, same⟩ := Option.map_eq_some_iff.mp split
  exact ⟨tail, same⟩

/-- Part of a character is no text. -/
theorem decode_part {char : Char} {bytes rest : List UInt8} (some_bytes : bytes ≠ [])
    (missing : rest ≠ []) (split : bytes ++ rest = String.utf8EncodeChar char)
    : decode bytes = none := by
  cases read : decode bytes with
  | none => rfl
  | some text =>
      have whole : bytes ++ rest = encode [char] := by
        rw [split, encode_cons, encode_nil, List.append_nil]
      obtain ⟨others, joined⟩ := prefix_of_decode read whole
      have front := encode_of_decode read
      cases text with
      | nil => exact absurd front.symm some_bytes
      | cons first tail =>
          rw [List.cons_append, List.cons.injEq, List.append_eq_nil_iff] at joined
          obtain ⟨rfl, rfl, -⟩ := joined
          rw [front, List.append_right_eq_self] at whole
          exact absurd whole missing

/-- Cutting after the first byte of a longer character leaves no text. -/
theorem decode_inside {char : Char} {text : List Char} (member : char ∈ text)
    (wide : 1 < (String.utf8EncodeChar char).length)
    : ∃ cut < (encode text).length, decode ((encode text).take cut) = none := by
  obtain ⟨before, after, rfl⟩ := List.append_of_mem member
  cases bytes : String.utf8EncodeChar char with
  | nil => exact absurd bytes String.utf8EncodeChar_ne_nil
  | cons lead low =>
      rw [bytes, List.length_cons] at wide
      have missing : low ≠ [] := List.length_pos_iff.mp (by omega)
      have split : encode (before ++ char :: after)
          = encode before ++ (lead :: (low ++ encode after)) := by
        rw [encode_append, encode_cons, bytes, List.cons_append]
      have part : decode [lead] = none :=
        decode_part (List.cons_ne_nil _ _) missing bytes.symm
      refine ⟨(encode before).length + 1, ?_, ?_⟩
      · rw [split]
        simp only [List.length_append, List.length_cons]
        omega
      · rw [split, List.take_length_add_append, List.take_succ_cons, List.take_zero,
          decode_encode_append, part, Option.map_none]

/-- Every character has at least one byte. -/
theorem length_le_length_encode (text : List Char) : text.length ≤ (encode text).length := by
  induction text with
  | nil => simp only [List.length_nil, encode_nil, Nat.le_refl]
  | cons char text ih =>
      have nonempty : 0 < (String.utf8EncodeChar char).length :=
        List.length_pos_iff.mpr String.utf8EncodeChar_ne_nil
      simp only [encode_cons, List.length_cons, List.length_append]
      omega

/-- The first bit of a byte of a longer character is set. -/
theorem marked_ne {byte mask mark : UInt8} (high : mark.toBitVec.getLsbD 7 = true)
    : byte &&& mask ||| mark ≠ 10 := by
  intro same
  have bit := congrArg (fun byte : UInt8 => byte.toBitVec.getLsbD 7) same
  simp only [UInt8.toBitVec_or, BitVec.getLsbD_or, high, Bool.or_true] at bit
  exact absurd bit (by decide)

/-- No byte of another character is a line break. -/
theorem newline_of_mem {char : Char} (member : (10 : UInt8) ∈ String.utf8EncodeChar char)
    : char = '\n' := by
  have least := char.utf8Size_pos
  have most := char.utf8Size_le_four
  by_cases single : char.utf8Size = 1
  · rw [String.utf8EncodeChar_eq_singleton single, List.mem_singleton] at member
    have small : char.val.toNat ≤ 127 := by
      simpa [Char.utf8Size_eq_one_iff, UInt32.le_iff_toNat_le] using single
    have value : char.val.toNat = 10 := by
      have low : 10 = char.val.toNat % 256 := congrArg UInt8.toNat member
      omega
    exact Char.ext (UInt32.toNat_inj.mp value)
  · exfalso
    by_cases double : char.utf8Size = 2
    · rw [String.utf8EncodeChar_eq_cons_cons double] at member
      simp only [List.mem_cons, List.not_mem_nil, or_false] at member
      rcases member with same | same <;> exact marked_ne (by decide) same.symm
    · by_cases triple : char.utf8Size = 3
      · rw [String.utf8EncodeChar_eq_cons_cons_cons triple] at member
        simp only [List.mem_cons, List.not_mem_nil, or_false] at member
        rcases member with same | same | same <;> exact marked_ne (by decide) same.symm
      · rw [String.utf8EncodeChar_eq_cons_cons_cons_cons (by omega)] at member
        simp only [List.mem_cons, List.not_mem_nil, or_false] at member
        rcases member with same | same | same | same <;> exact marked_ne (by decide) same.symm

/-- A text without line breaks has none in its bytes. -/
theorem newline_not_mem_encode {text : List Char} (absent : '\n' ∉ text)
    : (10 : UInt8) ∉ encode text := by
  intro member
  obtain ⟨char, inside, byte⟩ := List.mem_flatMap.mp member
  exact absent (newline_of_mem byte ▸ inside)

end VerticalAI.Foundation.Utf8
