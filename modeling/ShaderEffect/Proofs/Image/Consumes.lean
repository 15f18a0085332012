import Mathlib.Data.List.Forall2
import ShaderEffect.Proofs.Image.Yields

/-!
# Reading what stands in data

A reader consumes some bytes as a value if it answers the value wherever data has these bytes, and
goes on behind them (`Reader.Consumes`). A reader of nodes also creates a number of nodes that is
known (`NodeReader.Consumes`). What one reader after the other consumes stands side by side in data.
-/

namespace ShaderEffect

variable {α β : Type}

/-! ### Bytes in data -/

namespace Bytes

/-- Data has the given bytes from a position on. -/
def Holds (data : Bytes) (position : Nat) (bs : List UInt8) : Prop :=
  ∃ front back, data.toList = front ++ bs ++ back ∧ front.length = position

variable {data : Bytes} {position : Nat} {bs cs : List UInt8}

lemma holds_append : data.Holds position (bs ++ cs) ↔
    data.Holds position bs ∧ data.Holds (position + bs.length) cs := by
  constructor
  · rintro ⟨front, back, heq, rfl⟩
    constructor
    · exact ⟨front, cs ++ back, by simp [heq], rfl⟩
    · exact ⟨front ++ bs, back, by simp [heq], by simp⟩
  · rintro ⟨⟨front, back, heq, rfl⟩, front', back', heq', hlength⟩
    have hboth : front' ++ (cs ++ back') = front ++ bs ++ back := by
      rw [← heq, heq', List.append_assoc]
    have hfront : front' = front ++ bs :=
      List.append_inj_left hboth (by rw [hlength, List.length_append])
    subst hfront
    exact ⟨front, back', by rw [heq']; simp, rfl⟩

lemma Holds.le_size (h : data.Holds position bs) : position + bs.length ≤ data.size := by
  obtain ⟨front, back, heq, rfl⟩ := h
  have hlength := congrArg List.length heq
  simp only [Array.length_toList, List.length_append] at hlength
  omega

lemma Holds.extract (h : data.Holds position bs) :
    data.extract position (position + bs.length) = bs.toArray := by
  obtain ⟨front, back, heq, rfl⟩ := h
  apply Array.toList_inj.1
  rw [Array.toList_extract, heq]
  simp

lemma Holds.slice (h : data.Holds position bs) (field : String) :
    data.slice position bs.length field = .ok bs.toArray := by
  rw [Bytes.slice, if_pos h.le_size, h.extract]

lemma Holds.getElem {i : Nat} (h : data.Holds position bs) (hi : i < bs.length)
    (hlt : position + i < data.size) : data[position + i] = bs[i] := by
  obtain ⟨front, back, heq, rfl⟩ := h
  have hget : data.toList[front.length + i]? = bs[i]? := by
    rw [heq, List.append_assoc, List.getElem?_append_right (Nat.le_add_right ..),
      Nat.add_sub_cancel_left, List.getElem?_append_left hi]
  rw [Array.getElem?_toList, Array.getElem?_eq_getElem hlt, List.getElem?_eq_getElem hi] at hget
  exact Option.some.inj hget

lemma Holds.word {w : UInt32} (h : data.Holds position (Word.bytes w)) (field : String) :
    data.word position field = .ok w := by
  have hle : position + 4 ≤ data.size := h.le_size
  have hbyte : ∀ (i : Nat) (hi : i < 4), data[position + i] = (Word.bytes w)[i] :=
    fun i hi => h.getElem hi (by omega)
  rw [Bytes.word, dif_pos hle, hbyte 1 (by decide), hbyte 2 (by decide), hbyte 3 (by decide),
    show data[position] = (Word.bytes w)[0] from hbyte 0 (by decide)]
  exact congrArg _ (Word.ofBytes_bytes w)

end Bytes

/-! ### Readers -/

/-- Wherever data has the given bytes, a reader answers a value and goes on behind them. -/
def Reader.Consumes (reader : Reader α) (data : Bytes) (bs : List UInt8) (a : α) : Prop :=
  ∀ position, data.Holds position bs → reader data position = .ok (a, position + bs.length)

/-- Wherever data has the given bytes, a reader of nodes answers a value, goes on behind them and
has created some number of nodes. -/
def Image.NodeReader.Consumes (reader : Image.NodeReader α) (data : Bytes) (used : Nat)
    (bs : List UInt8) (a : α) : Prop :=
  ∀ left, Reader.Consumes (reader (used + left)) data bs (a, left)

/-- To repeat an action is to carry it out, and then to repeat it once less. -/
lemma repeated_succ {m : Type → Type} [Monad m] [LawfulMonad m] (act : m α) (n : Nat) :
    repeated act (n + 1) [] = do
      let a ← act
      let as ← repeated act n []
      return a :: as := by
  have hdone : ∀ n (done : List α),
      repeated act n done = (done.reverse ++ ·) <$> repeated act n [] := by
    intro n
    induction n with
    | zero => intro done; simp [repeated]
    | succ n ih =>
      intro done
      rw [repeated, repeated, map_bind]
      congr 1
      funext a
      rw [ih (a :: done), ih [a], ← comp_map]
      congr 1
      funext as
      simp
  rw [repeated]
  congr 1
  funext a
  rw [hdone n [a], map_eq_pure_bind]
  rfl

namespace Reader.Consumes

variable {data : Bytes} {reader : Reader α} {bs cs : List UInt8} {a : α} {b : β}

lemma pure (a : α) : (pure a : Reader α).Consumes data [] a := fun _ _ => rfl

lemma bind {f : α → Reader β} (h : reader.Consumes data bs a) (hf : (f a).Consumes data cs b) :
    (reader >>= f).Consumes data (bs ++ cs) b := by
  intro position hholds
  obtain ⟨hfirst, hrest⟩ := Bytes.holds_append.1 hholds
  show (reader data position >>= fun r => f r.1 data r.2) = _
  rw [h position hfirst, List.length_append, ← Nat.add_assoc]
  exact hf _ hrest

/-- The last step consumes nothing. -/
lemma bind_last {f : α → Reader β} (h : reader.Consumes data bs a) (hf : (f a).Consumes data [] b) :
    (reader >>= f).Consumes data bs b := by
  have hboth := h.bind hf
  rwa [List.append_nil] at hboth

lemma bind_pure {f : α → β} (h : reader.Consumes data bs a) :
    (reader >>= fun a => Pure.pure (f a)).Consumes data bs (f a) :=
  h.bind_last (pure (f a))

/-- The first step consumes nothing. -/
lemma bind_nil {f : α → Reader β} (h : reader.Consumes data [] a) (hf : (f a).Consumes data cs b) :
    (reader >>= f).Consumes data cs b :=
  h.bind hf

/-- What is consumed fits in the data. -/
lemma of_length_le (h : bs.length ≤ data.size → reader.Consumes data bs a) :
    reader.Consumes data bs a := fun position hholds =>
  h (Nat.le_trans (Nat.le_add_left ..) hholds.le_size) position hholds

lemma word (w : UInt32) (field : String) :
    (Reader.word field).Consumes data (Word.bytes w) w := by
  intro position hholds
  rw [Reader.word, hholds.word]
  rfl

lemma elsewhere {position : Nat} (h : reader.Consumes data bs a)
    (hholds : data.Holds position bs) : (reader.elsewhere position).Consumes data [] a := by
  intro here _
  rw [Reader.elsewhere, h position hholds]
  rfl

lemma whole {f : Bytes → Except FormatError α} (h : f data = .ok a) :
    (Reader.whole f).Consumes data [] a := by
  intro here _
  rw [Reader.whole, h]
  rfl

lemma checkCount {count : UInt32} {least : Nat} (h : count.toNat * least ≤ data.size)
    (record : String) : (Reader.checkCount count least record).Consumes data [] () :=
  whole (if_pos h)

lemma paddedSlice (bs : List UInt8) (field : String) :
    (Reader.paddedSlice bs.length field).Consumes data (Word.padded bs) bs.toArray := by
  intro position hholds
  rw [Reader.paddedSlice, (Bytes.holds_append.1 hholds).1.slice]
  simp [Word.padded]

lemma times_zero (reader : Reader α) : (Reader.times 0 reader).Consumes data [] [] :=
  pure []

lemma times_succ {n : Nat} {as : List α} (h : reader.Consumes data bs a)
    (hrest : (Reader.times n reader).Consumes data cs as) :
    (Reader.times (n + 1) reader).Consumes data (bs ++ cs) (a :: as) := by
  rw [Reader.times, repeated_succ]
  exact h.bind hrest.bind_pure

end Reader.Consumes

namespace Image.NodeReader.Consumes

variable {data : Bytes} {reader : NodeReader α} {used used' : Nat} {bs cs : List UInt8} {a : α}
  {b : β}

lemma pure (a : α) : (pure a : NodeReader α).Consumes data 0 [] a := by
  intro left
  rw [Nat.zero_add]
  exact Reader.Consumes.pure (a, left)

lemma bind {f : α → NodeReader β} (h : reader.Consumes data used bs a)
    (hf : (f a).Consumes data used' cs b) :
    (reader >>= f).Consumes data (used + used') (bs ++ cs) b := by
  intro left
  rw [Nat.add_assoc]
  exact (h (used' + left)).bind (f := fun r => f r.1 r.2) (hf left)

/-- The last step consumes nothing and creates no nodes. -/
lemma bind_last {f : α → NodeReader β} (h : reader.Consumes data used bs a)
    (hf : (f a).Consumes data 0 [] b) : (reader >>= f).Consumes data used bs b := by
  have hboth := h.bind hf
  rwa [List.append_nil, Nat.add_zero] at hboth

lemma bind_pure {f : α → β} (h : reader.Consumes data used bs a) :
    (reader >>= fun a => Pure.pure (f a)).Consumes data used bs (f a) :=
  h.bind_last (pure (f a))

/-- Reading without creating nodes. -/
lemma lift {reader : Reader α} (h : reader.Consumes data bs a) :
    (liftM reader : NodeReader α).Consumes data 0 bs a := by
  intro left
  rw [Nat.zero_add]
  exact h.bind_pure (f := fun a => (a, left))

/-- The first step creates no nodes. -/
lemma skip {reader : Reader α} {f : α → NodeReader β} (h : reader.Consumes data bs a)
    (hf : (f a).Consumes data used cs b) :
    (liftM reader >>= f : NodeReader β).Consumes data used (bs ++ cs) b := by
  have hboth := (lift h).bind hf
  rwa [Nat.zero_add] at hboth

/-- The first step neither creates nodes nor consumes anything. -/
lemma skip_nil {reader : Reader α} {f : α → NodeReader β} (h : reader.Consumes data [] a)
    (hf : (f a).Consumes data used cs b) :
    (liftM reader >>= f : NodeReader β).Consumes data used cs b :=
  skip h hf

lemma of_length_le (h : bs.length ≤ data.size → reader.Consumes data used bs a) :
    reader.Consumes data used bs a := fun left => .of_length_le fun hle => h hle left

lemma takeNode : takeNode.Consumes data 1 [] () := by
  intro left
  rw [Nat.add_comm]
  exact Reader.Consumes.pure ((), left)

lemma elsewhere {position : Nat} (h : reader.Consumes data used bs a)
    (hholds : data.Holds position bs) :
    (reader.elsewhere position).Consumes data used [] a :=
  fun left => (h left).elsewhere hholds

lemma repeated_zero (act : NodeReader α) : (repeated act 0 []).Consumes data 0 [] [] :=
  pure []

lemma repeated_succ {n : Nat} {as : List α} (h : reader.Consumes data used bs a)
    (hrest : (repeated reader n []).Consumes data used' cs as) :
    (repeated reader (n + 1) []).Consumes data (used + used') (bs ++ cs) (a :: as) := by
  rw [ShaderEffect.repeated_succ]
  exact h.bind hrest.bind_pure

end Image.NodeReader.Consumes

end ShaderEffect
