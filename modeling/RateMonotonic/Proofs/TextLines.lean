/-
**The lines of a text, and the lines of its bytes.**

A text in UTF-8 is split at the bytes of newlines, and its lines are decoded one by one.  No byte of
a longer character is that of a newline or of a carriage return, so the text can as well be split
first.  For a ledger the carriage returns do not matter: they are blank, and stand at the end of
their line; nor does an empty last line, which is skipped.

Main definitions:
* `Lines.encode` — the bytes of a row of characters.

Main results:
* `Lines.splitOn_encode` — **bytes are split where the text is**;
* `Lines.text?_encode` — what has been encoded can be decoded;
* `Lines.exists_texts` — **a ledger reads the same lines in a text as in its bytes.**
-/

import RateMonotonic.Proofs.Ledger

set_option relaxedAutoImplicit false
set_option autoImplicit false

namespace RateMonotonic.Lines

/-- The bytes of a row of characters in UTF-8. -/
def encode (cs : List Char) : List UInt8 := cs.flatMap String.utf8EncodeChar

@[simp] theorem encode_nil : encode [] = [] := rfl

theorem encode_cons (c : Char) (cs : List Char) :
    encode (c :: cs) = String.utf8EncodeChar c ++ encode cs := rfl

theorem encode_append (cs ds : List Char) : encode (cs ++ ds) = encode cs ++ encode ds :=
  List.flatMap_append

/-- The bytes of an array from one of them on. -/
theorem toList_loop (bytes : ByteArray) (i : ℕ) (before : List UInt8) :
    ByteArray.toList.loop bytes i before = before.reverse ++ bytes.data.toList.drop i := by
  fun_induction ByteArray.toList.loop bytes i before with
  | case1 i before h ih =>
      have hi : i < bytes.data.toList.length := by simpa using h
      rw [ih, List.drop_eq_getElem_cons hi]
      simp [ByteArray.get!, h]
  | case2 i before h =>
      rw [List.drop_eq_nil_of_le (by simpa using Nat.le_of_not_lt h)]
      simp

/-- The bytes of a text are those of its characters. -/
theorem toList_toUTF8 (text : String) : text.toUTF8.toList = encode text.toList := by
  have hbytes : text.toUTF8 = text.toList.utf8Encode := String.utf8Encode_toList.symm
  rw [ByteArray.toList, toList_loop, hbytes, List.utf8Encode, List.data_toByteArray, encode]
  simp

/-- **What has been encoded can be decoded.** -/
theorem text?_encode (cs : List Char) : text? (encode cs) = some cs := by
  have hbytes : (⟨(encode cs).toArray⟩ : ByteArray) = cs.utf8Encode := by
    rw [ByteArray.ext_iff]
    simp [encode, List.utf8Encode]
  have hvalid : cs.utf8Encode.IsValidUTF8 := ⟨cs, rfl⟩
  rw [text?, hbytes, String.fromUTF8?, dif_pos hvalid, Option.map_some]
  exact congrArg some String.toList_ofList

/-! ### Single characters -/

/-- No byte of a longer character is below 128. -/
theorem encodeChar_of_mem {c : Char} {b : UInt8} (hb : b.toNat < 128)
    (h : b ∈ String.utf8EncodeChar c) : c.toNat = b.toNat := by
  have hlong : ∀ n, 128 ≤ n % 256 → b ≠ UInt8.ofNat n := by
    rintro n hn rfl
    rw [UInt8.toNat_ofNat'] at hb
    omega
  simp only [String.utf8EncodeChar] at h
  split at h
  · next hshort =>
      rw [List.mem_singleton.1 h, UInt8.toNat_ofNat']
      change c.val.toNat = _
      omega
  · -- Every byte of a longer character has its highest bit set.
    exfalso
    split at h
    · simp only [List.mem_cons, List.not_mem_nil, or_false] at h
      rcases h with h | h <;> exact hlong _ (by omega) h
    · split at h
      · simp only [List.mem_cons, List.not_mem_nil, or_false] at h
        rcases h with h | h | h <;> exact hlong _ (by omega) h
      · simp only [List.mem_cons, List.not_mem_nil, or_false] at h
        rcases h with h | h | h | h <;> exact hlong _ (by omega) h

theorem encodeChar_newline : String.utf8EncodeChar '\n' = [newline] := by decide

theorem encodeChar_return : String.utf8EncodeChar '\r' = [carriageReturn] := by decide

/-- Only the newline has the byte of a newline. -/
theorem newline_notMem {c : Char} (hc : c ≠ '\n') : newline ∉ String.utf8EncodeChar c := by
  intro h
  refine hc (Char.toNat_inj.1 ?_)
  exact encodeChar_of_mem (by decide) h

/-- Only the carriage return has the byte of a carriage return. -/
theorem carriageReturn_notMem {c : Char} (hc : c ≠ '\r') :
    carriageReturn ∉ String.utf8EncodeChar c := by
  intro h
  refine hc (Char.toNat_inj.1 ?_)
  exact encodeChar_of_mem (by decide) h

/-! ### Splitting -/

/-- A row without newlines stays together. -/
theorem splitOn_append_of_notMem {row : List UInt8} (h : newline ∉ row) (rest : List UInt8) :
    (row ++ rest).splitOn newline = (rest.splitOn newline).modifyHead (row ++ ·) := by
  induction row with
  | nil =>
      rw [List.nil_append]
      cases rest.splitOn newline <;> rfl
  | cons b row ih =>
      simp only [List.mem_cons, not_or] at h
      obtain ⟨hb, hrow⟩ := h
      rw [List.cons_append, List.splitOn_cons_eq_if_modifyHead, if_neg (by simpa using Ne.symm hb),
        ih hrow]
      cases rest.splitOn newline <;> rfl

/-- **Bytes are split where the text is.** -/
theorem splitOn_encode (cs : List Char) :
    (encode cs).splitOn newline = (cs.splitOn '\n').map encode := by
  induction cs with
  | nil => rfl
  | cons c cs ih =>
      rw [encode_cons, List.splitOn_cons_eq_if_modifyHead c cs]
      by_cases hc : c = '\n'
      · subst hc
        rw [encodeChar_newline, List.singleton_append, List.splitOn_cons_eq_if_modifyHead, ih]
        rfl
      · rw [splitOn_append_of_notMem (newline_notMem hc), ih, if_neg (by simpa using hc)]
        cases cs.splitOn '\n' <;> rfl

/-! ### Lines -/

/-- A carriage return at the end of a line is a blank. -/
theorem exists_dropReturn (cs : List Char) :
    ∃ ds, dropReturn (encode cs) = encode ds ∧ Blank.trim ds = Blank.trim cs := by
  rcases cs.eq_nil_or_concat' with rfl | ⟨before, c, rfl⟩
  · exact ⟨[], rfl, rfl⟩
  · by_cases hc : c = '\r'
    · subst hc
      have hrow : encode (before ++ ['\r']) = encode before ++ [carriageReturn] := by
        rw [encode_append, encode_cons, encodeChar_return]
        rfl
      refine ⟨before, ?_, (Blank.trim_concat (by decide) before).symm⟩
      simp [hrow, dropReturn]
    · refine ⟨before ++ [c], ?_, rfl⟩
      have hrow : encode (before ++ [c]) = encode before ++ String.utf8EncodeChar c := by
        rw [encode_append, encode_cons, encode_nil, List.append_nil]
      have hlast : (encode (before ++ [c])).getLast? ≠ some carriageReturn := by
        intro h
        rw [hrow, List.getLast?_append_of_ne_nil _ (String.utf8EncodeChar_ne_nil)] at h
        exact carriageReturn_notMem hc (List.mem_of_getLast? h)
      rw [dropReturn, if_neg hlast]

/-- Every line of the bytes is the text of a line, without the carriage return at its end. -/
theorem exists_ofParts (g : Ledger.Rules) (parts : List (List Char)) :
    ∃ texts : List (List Char), (ofParts (parts.map encode)).map text? = texts.map some ∧
      ∀ l, texts.foldl (Ledger.line g) l = parts.foldl (Ledger.line g) l := by
  induction parts with
  | nil => exact ⟨[], rfl, fun _ => rfl⟩
  | cons part rest ih =>
      obtain ⟨texts, htexts, hfold⟩ := ih
      cases rest with
      | nil =>
          cases part with
          | nil => exact ⟨[], rfl, fun _ => rfl⟩
          | cons c cs =>
              have hne : (encode (c :: cs)).isEmpty = false := by
                simp [encode_cons, String.utf8EncodeChar_ne_nil]
              refine ⟨[c :: cs], ?_, fun _ => rfl⟩
              simp only [List.map_cons, List.map_nil, ofParts, hne, Bool.false_eq_true, if_false,
                text?_encode]
      | cons next rest =>
          obtain ⟨line, hline, htrim⟩ := exists_dropReturn part
          refine ⟨line :: texts, ?_, fun l => ?_⟩
          · simp only [List.map_cons, ofParts, hline, text?_encode] at htexts ⊢
            rw [htexts]
          · rw [List.foldl_cons, List.foldl_cons, hfold, Ledger.line_congr htrim]

/-- **A ledger reads the same lines in a text as in its bytes.** -/
theorem exists_texts (g : Ledger.Rules) (text : String) :
    ∃ texts : List (List Char), ofBytes text.toUTF8.toList = texts.map some ∧
      ∀ l, texts.foldl (Ledger.line g) l = (text.toList.splitOn '\n').foldl (Ledger.line g) l := by
  rw [toList_toUTF8, ofBytes, rows, splitOn_encode]
  exact exists_ofParts g _

end RateMonotonic.Lines
