import PageCheck.Text.Line

/-! # The bytes of a text

A text is encoded character by character. A byte below 128 encodes the one character that has its
number, so scanning bytes for such a character finds it and nothing else. A slice of a text by
bytes exists exactly where both ends of the range fall between characters.
-/

namespace PageCheck.Text

def encode (cs : List Char) : List UInt8 :=
  cs.flatMap String.utf8EncodeChar

@[simp] theorem encode_nil : encode [] = [] := rfl

@[simp] theorem encode_cons (c : Char) (rest : List Char) :
    encode (c :: rest) = String.utf8EncodeChar c ++ encode rest := rfl

@[simp] theorem encode_append (front back : List Char) :
    encode (front ++ back) = encode front ++ encode back :=
  List.flatMap_append

theorem encode_eq_nil_iff {cs : List Char} : encode cs = [] ↔ cs = [] := by
  cases cs with
  | nil => simp
  | cons c rest => simp

theorem length_encode (cs : List Char) :
    (encode cs).length = (String.ofList cs).utf8ByteSize := by
  rw [← String.size_toByteArray, String.toByteArray_ofList, List.utf8Encode,
    List.size_toByteArray]
  rfl

theorem toList_toUTF8 (text : String) : text.toUTF8.toList = encode text.toList := by
  -- `ByteArray.toList` collects the bytes from some index on behind those already read.
  have collected (bytes : ByteArray) (index : Nat) (read : List UInt8) :
      ByteArray.toList.loop bytes index read = read.reverse ++ bytes.data.toList.drop index := by
    fun_induction ByteArray.toList.loop bytes index read with
    | case1 index read more ih =>
        have inside : index < bytes.data.toList.length := by simpa using more
        rw [ih, List.drop_eq_getElem_cons inside]
        simp [ByteArray.get!, more]
    | case2 index read done =>
        rw [List.drop_eq_nil_of_le (by simpa using done), List.append_nil]
  rw [String.toUTF8_eq_toByteArray, ← String.utf8Encode_toList, ByteArray.toList, collected,
    List.utf8Encode, List.toList_data_toByteArray]
  rfl

/-- A byte below 128 encodes only the character of that number. -/
theorem toNat_of_mem_utf8EncodeChar {c : Char} {byte : UInt8}
    (member : byte ∈ String.utf8EncodeChar c) (ascii : byte.toNat < 128) :
    c.toNat = byte.toNat := by
  revert member
  fun_cases String.utf8EncodeChar c with
  | case1 number small =>
      intro member
      rw [List.mem_singleton.mp member,
        UInt8.toNat_ofNat_of_lt' (Nat.lt_of_le_of_lt small (by decide))]
      rfl
  -- Each byte of a longer encoding is at least 128.
  | case2 =>
      intro member
      simp only [List.mem_cons, List.not_mem_nil, or_false] at member
      rcases member with rfl | rfl <;> rw [UInt8.toNat_ofNat'] at ascii <;> omega
  | case3 =>
      intro member
      simp only [List.mem_cons, List.not_mem_nil, or_false] at member
      rcases member with rfl | rfl | rfl <;> rw [UInt8.toNat_ofNat'] at ascii <;> omega
  | case4 =>
      intro member
      simp only [List.mem_cons, List.not_mem_nil, or_false] at member
      rcases member with rfl | rfl | rfl | rfl <;> rw [UInt8.toNat_ofNat'] at ascii <;> omega

theorem mem_of_mem_encode {c : Char} {byte : UInt8} {cs : List Char} (member : byte ∈ encode cs)
    (ascii : byte.toNat < 128) (number : c.toNat = byte.toNat) : c ∈ cs := by
  obtain ⟨other, found, encoded⟩ := List.mem_flatMap.mp member
  have same : other = c := by
    apply Char.toNat_inj.mp
    rw [toNat_of_mem_utf8EncodeChar encoded ascii, number]
  exact same ▸ found

@[simp] theorem dropBytes?_zero (cs : List Char) : dropBytes? 0 cs = some cs := by
  unfold dropBytes?
  rfl

@[simp] theorem takeBytes?_zero (cs : List Char) : takeBytes? 0 cs = some [] := by
  unfold takeBytes?
  rfl

theorem dropBytes?_cons (c : Char) (size : Nat) (rest : List Char) :
    dropBytes? (c.utf8Size + size) (c :: rest) = dropBytes? size rest := by
  obtain ⟨less, total⟩ : ∃ less, c.utf8Size + size = less + 1 :=
    Nat.exists_eq_add_one.mpr (Nat.add_pos_left c.utf8Size_pos size)
  rw [total, dropBytes?, ← total, if_pos (Nat.le_add_right _ _), Nat.add_sub_cancel_left]

theorem takeBytes?_cons (c : Char) (size : Nat) (rest : List Char) :
    takeBytes? (c.utf8Size + size) (c :: rest) = (takeBytes? size rest).map (c :: ·) := by
  obtain ⟨less, total⟩ : ∃ less, c.utf8Size + size = less + 1 :=
    Nat.exists_eq_add_one.mpr (Nat.add_pos_left c.utf8Size_pos size)
  rw [total, takeBytes?, ← total, if_pos (Nat.le_add_right _ _), Nat.add_sub_cancel_left]

theorem dropBytes?_encode (front rest : List Char) :
    dropBytes? (encode front).length (front ++ rest) = some rest := by
  induction front with
  | nil => exact dropBytes?_zero rest
  | cons c front ih =>
      rw [encode_cons, List.length_append, String.length_utf8EncodeChar, List.cons_append,
        dropBytes?_cons, ih]

theorem takeBytes?_encode (part rest : List Char) :
    takeBytes? (encode part).length (part ++ rest) = some part := by
  induction part with
  | nil => exact takeBytes?_zero rest
  | cons c part ih =>
      rw [encode_cons, List.length_append, String.length_utf8EncodeChar, List.cons_append,
        takeBytes?_cons, ih, Option.map_some]

/-- A text can be cut between any two of its characters. -/
theorem slice?_append (front part rest : List Char) :
    slice? (String.ofList (front ++ (part ++ rest)))
      ⟨(encode front).length, (encode front).length + (encode part).length⟩ =
        some (String.ofList part) := by
  rw [slice?, if_pos (Nat.le_add_right _ _), String.toList_ofList, dropBytes?_encode,
    Option.bind_some, Nat.add_sub_cancel_left, takeBytes?_encode, Option.map_some]

end PageCheck.Text
