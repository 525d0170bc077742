import LeafSurvey.Json.Reader
import Mathlib.Data.List.Infix

/-!
# Texts as bytes

A file that holds a text is decoded to this text again, and so is the front of a
longer file. A mark of the byte order is only skipped where its first byte
stands, and no character of one byte is written with it.

* `fromUTF8?_append`: what stands behind a text is decoded by itself;
* `skipMark_append`: no text in front makes a mark that was not there.
-/

namespace LeafSurvey.Json

/-- The bytes from a position on are listed after those in front, which are kept
last one first. -/
theorem toList_loop (bytes : ByteArray) (i : Nat) (front : List UInt8) :
    ByteArray.toList.loop bytes i front
      = front.reverse ++ bytes.data.toList.drop i := by
  have hsize : bytes.data.toList.length = bytes.size := Array.length_toList
  fun_induction ByteArray.toList.loop bytes i front with
  | case1 i front hi ih =>
    have hdrop : bytes.data.toList.drop i
        = bytes.get! i :: bytes.data.toList.drop (i + 1) := by
      rw [List.drop_eq_getElem_cons (hsize ▸ hi), Array.getElem_toList]
      exact congrArg (· :: _) (getElem!_pos bytes.data i hi).symm
    rw [ih, hdrop, List.reverse_cons, List.append_assoc, List.singleton_append]
  | case2 i front hi =>
    have hnil : bytes.data.toList.drop i = [] :=
      List.drop_eq_nil_of_le (by omega)
    rw [hnil, List.append_nil]

/-- The bytes of an array, one by one. -/
theorem toList_eq_data (bytes : ByteArray) :
    bytes.toList = bytes.data.toList := by
  rw [ByteArray.toList, toList_loop, List.reverse_nil,
    List.nil_append, List.drop_zero]

theorem data_skipMark (bytes : ByteArray) : (skipMark bytes).data.toList
    = if byteOrderMark <+: bytes.data.toList then bytes.data.toList.drop 3
        else bytes.data.toList := by
  have hfront : (bytes.extract 0 3).toList = bytes.data.toList.take 3 := by
    rw [toList_eq_data, ByteArray.data_extract, Array.toList_extract]
    simp [List.extract]
  have hmark : (bytes.extract 0 3).toList = byteOrderMark
      ↔ byteOrderMark <+: bytes.data.toList := by
    rw [hfront, List.prefix_iff_eq_take, eq_comm]
    rfl
  by_cases h : byteOrderMark <+: bytes.data.toList
  · rw [skipMark, if_pos (hmark.mpr h), if_pos h, ByteArray.data_extract,
      Array.toList_extract, List.extract_eq_take_drop, List.take_of_length_le]
    simp
  · rw [skipMark, if_neg (mt hmark.mp h), if_neg h]

theorem skipMark_of_unmarked {bytes : ByteArray}
    (h : ¬byteOrderMark <+: bytes.data.toList) :
    skipMark bytes = bytes :=
  ByteArray.ext (Array.toList_inj.mp (by rw [data_skipMark, if_neg h]))

/-- Bytes that do not start as the mark are not skipped. -/
theorem skipMark_of_first {bytes : ByteArray} {b : UInt8} {rest : List UInt8}
    (h : bytes.data.toList = b :: rest) (hb : b ≠ 0xEF) :
    skipMark bytes = bytes := by
  refine skipMark_of_unmarked fun hprefix => ?_
  rw [h] at hprefix
  exact hb (List.cons_prefix_cons.mp hprefix).1.symm

theorem toList_data_toUTF8 (text : String) :
    text.toUTF8.data.toList = text.toList.flatMap String.utf8EncodeChar := by
  rw [String.toUTF8_eq_toByteArray, ← String.utf8Encode_toList, List.utf8Encode,
    List.toList_data_toByteArray]

/-- A text that starts with a character of one byte starts without mark. -/
theorem skipMark_toUTF8 {text : String} {c : Char} {rest : List Char}
    (h : text.toList = c :: rest) (hc : c.utf8Size = 1) :
    skipMark text.toUTF8 = text.toUTF8 := by
  have hbytes : text.toUTF8.data.toList
      = c.val.toUInt8 :: rest.flatMap String.utf8EncodeChar := by
    rw [toList_data_toUTF8, h, List.flatMap_cons,
      String.utf8EncodeChar_eq_singleton hc]
    rfl
  refine skipMark_of_first hbytes fun hfirst => ?_
  have hle := UInt32.le_iff_toNat_le.mp (Char.utf8Size_eq_one_iff.mp hc)
  have hbyte := congrArg UInt8.toNat hfirst
  rw [UInt32.toNat_toUInt8] at hbyte
  simp at hle hbyte
  omega

theorem fromUTF8?_toUTF8 (text : String) :
    String.fromUTF8? text.toUTF8 = some text := by
  have hvalid : text.toUTF8.IsValidUTF8 :=
    text.toUTF8_eq_toByteArray ▸ text.isValidUTF8
  rw [String.fromUTF8?, dif_pos hvalid]
  rfl

theorem fromUTF8?_eq_some {bytes : ByteArray} {text : String} :
    String.fromUTF8? bytes = some text ↔ bytes = text.toUTF8 := by
  constructor
  · intro h
    unfold String.fromUTF8? at h
    split at h
    · cases h
      rfl
    · cases h
  · rintro rfl
    exact fromUTF8?_toUTF8 text

/-- What stands behind a text is decoded by itself. -/
theorem fromUTF8?_append {u : ByteArray} {text : String}
    (h : String.fromUTF8? u = some text) (v : ByteArray) :
    String.fromUTF8? (u ++ v) = (String.fromUTF8? v).map (text ++ ·) := by
  rw [fromUTF8?_eq_some.mp h]
  cases hv : String.fromUTF8? v with
  | some more =>
    rw [fromUTF8?_eq_some.mp hv, Option.map_some, fromUTF8?_eq_some]
    simp [String.toUTF8_eq_toByteArray]
  | none =>
    rw [Option.map_none]
    by_contra hne
    obtain ⟨longer, hlonger⟩ := Option.ne_none_iff_exists'.mp hne
    have hbytes := fromUTF8?_eq_some.mp hlonger
    rw [String.toUTF8_eq_toByteArray, String.toUTF8_eq_toByteArray,
      ← String.utf8Encode_toList, ← String.utf8Encode_toList] at hbytes
    -- the characters of the front are those of the text, and the rest are those
    -- of what follows
    obtain ⟨rest, hrest⟩ :=
      List.isPrefix_of_utf8Encode_append_eq_utf8Encode v hbytes
    rw [← hrest, List.utf8Encode_append, ByteArray.append_right_inj] at hbytes
    have : v = (String.ofList rest).toUTF8 := by
      simp [String.toUTF8_eq_toByteArray, hbytes]
    rw [fromUTF8?_eq_some.mpr this] at hv
    cases hv

/-- A mark in front of a longer file stands in front of the text that the file
starts with. -/
theorem skipMark_append {u : ByteArray} {text : String}
    (hu : String.fromUTF8? (skipMark u) = some text) (hne : text ≠ "")
    (v : ByteArray) : skipMark (u ++ v) = skipMark u ++ v := by
  refine ByteArray.ext (Array.toList_inj.mp ?_)
  have happend : ∀ a b : ByteArray,
      (a ++ b).data.toList = a.data.toList ++ b.data.toList := by
    simp
  rw [happend, data_skipMark, data_skipMark, happend]
  by_cases hmark : byteOrderMark <+: u.data.toList
  · have hlength : 3 ≤ u.data.toList.length := hmark.length_le
    rw [if_pos hmark, if_pos (hmark.trans (List.prefix_append _ _)),
      List.drop_append_of_le_length hlength]
  · rw [if_neg hmark, if_neg]
    intro hlonger
    -- what stands in front is shorter than the mark, so it is empty or cuts a
    -- character
    have hfront : u.data.toList <+: byteOrderMark := by
      rcases List.prefix_or_prefix_of_prefix hlonger
        (List.prefix_append _ v.data.toList) with h | h
      · exact absurd h hmark
      · exact h
    rw [skipMark_of_unmarked hmark] at hu
    have hcut : ∀ front ∈ byteOrderMark.inits,
        front = [] ∨ front = byteOrderMark
        ∨ String.fromUTF8? ⟨front.toArray⟩ = none := by
      decide +kernel
    rcases hcut _ (List.mem_inits _ _ |>.mpr hfront) with
      hempty | hwhole | hnone
    · have hu' : u = "".toUTF8 := ByteArray.ext (Array.toList_inj.mp hempty)
      rw [hu', fromUTF8?_toUTF8] at hu
      exact hne (Option.some.inj hu).symm
    · exact hmark (hwhole ▸ List.prefix_rfl)
    · cases hu.symm.trans hnone

/-- A text without mark in front is read as it stands. -/
theorem ofBytes?_toUTF8 {text : String} {d : Document Leaf}
    (hmark : skipMark text.toUTF8 = text.toUTF8)
    (hd : ofChars? text.toList = some d) :
    ofBytes? text.toUTF8 = .ok d := by
  unfold ofBytes?
  rw [hmark, fromUTF8?_toUTF8]
  simp only [hd]

end LeafSurvey.Json
